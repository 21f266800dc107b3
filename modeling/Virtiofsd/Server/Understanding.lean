/-
  # How messages are understood after a migration

  What the server makes of a message depends on the options of the session: on the layout of
  SETXATTR, and on the extensions of the requests that create something.  `Server::serialize`
  and `deserialize_and_apply` hand the state of the file system over, and nothing else: the
  flags of the file system are the same on both sides, but the options of a destination are
  those of a server that has just started, until the next INIT.

  Two servers understand all messages alike exactly if they agree on three of the options
  (`handleMessage_given`); the messages in section 4 tell them apart if they do not.
-/
import Virtiofsd.Migration.Footprint
import Virtiofsd.Server.Negotiation

namespace Virtiofsd

open Lib Prog FsOptions

namespace Server

open Fuse

variable {I : Type}

/-! ## 1. What the handlers ask for -/

/-- The value of `Server::options` is known. -/
def knownOptions (options : UInt64) :
    (a : ServerAct FsCall) → Option (ServerAct.Ans (FsCall.Ans I) a)
  | .fs .loadOptions => some options
  | _ => none

/-- **What is made of a message**: the program of its handler, once the options are known. -/
def understood [DirectoryIterator I] (options : UInt64) (pageSize : Nat) (r : Input) (w : Writer) :
    HandleM I Handled :=
  (handleMessage pageSize r w).given (knownOptions options)

/-- A call that does not load the options. -/
def FsCall.Elsewhere : FsCall → Prop
  | .loadOptions => False
  | _ => True

/-- A program that does not load the options. -/
def WithoutOptions {α : Type} (p : HandleM I α) : Prop :=
  Keeps (fun
    | .copy _ _ => True
    | .fs c => c.Elsewhere) (fun _ _ => True) p fun _ => True

variable {α : Type}

theorem WithoutOptions.given {p : HandleM I α} (hp : WithoutOptions p) (o o' : UInt64) :
    p.given (knownOptions o) = p.given (knownOptions o') := by
  refine Keeps.given_congr hp fun a ha => ?_
  cases a with
  | copy addr bytes => rfl
  | fs c =>
    cases c with
    | loadOptions => exact ha.elim
    | _ => rfl

/-- What is proved with the specification of the server. -/
theorem WithoutOptions.of_wp
    {Q : Outcome IoError Panic α → Memory × List (Sigma (FsCall.Ans I)) → Prop} (p : HandleM I α) :
    ∀ (m : Memory) (calls : List (Sigma (FsCall.Ans I))),
      p.wp (serving FsCall.Elsewhere fun _ _ => True) Q (m, calls) → WithoutOptions p := by
  induction p with
  | ret a => exact fun _ _ _ => Obeys.ret trivial
  | err e => exact fun _ _ _ => Obeys.err
  | panic q => exact fun _ _ _ => Keeps.panic
  | act a k ih =>
    rintro m calls ⟨hpre, hwp⟩
    cases a with
    | copy addr bytes => exact Obeys.act trivial fun r _ => ih r _ _ (hwp r _ rfl)
    | fs c => exact Obeys.act hpre fun r _ => ih r _ _ (hwp r _ ⟨trivial, rfl⟩)

section

variable {unique : UInt64} {w : Writer}

theorem replyError_withoutOptions (e : IoError) :
    WithoutOptions (replyError e unique w : HandleM I Handled) :=
  WithoutOptions.of_wp _ (fun _ => 0) [] (wp_replyError_any _ _ e)

theorem replyOk_withoutOptions (out data : List UInt8) :
    WithoutOptions (replyOk out data unique w : HandleM I Handled) :=
  WithoutOptions.of_wp _ (fun _ => 0) [] (wp_replyOk_any _ _ out data)

theorem call_withoutOptions {c : FsCall} (hc : c.Elsewhere) :
    WithoutOptions (call c : HandleM I (c.Ans I)) :=
  Obeys.act hc fun _ _ => Obeys.ret trivial

theorem callAndReply_withoutOptions {c : FsCall} (hc : c.Elsewhere) :
    WithoutOptions (callAndReply c unique w : HandleM I Handled) := by
  refine (call_withoutOptions hc).bind fun r _ => ?_
  split
  · exact replyOk_withoutOptions _ _
  · exact replyError_withoutOptions _

theorem withArgs_withoutOptions {args : Parse α} {k : α → HandleM I Handled}
    (h : ∀ a, args = .ok a → WithoutOptions (k a)) : WithoutOptions (withArgs args k) := by
  cases args with
  | ok a => exact h a rfl
  | err e => exact Obeys.ret trivial
  | panic q => exact Keeps.panic

/-- The arguments lead to a call that is not for the options. -/
def Asks (args : Parse FsCall) : Prop := ∀ c, args = .ok c → c.Elsewhere

theorem Asks.ok {c : FsCall} (hc : c.Elsewhere) : Asks (.ok c) := fun _ h => by
  cases h
  exact hc

theorem Asks.bind {x : Parse α} {f : α → Parse FsCall} (hf : ∀ a, Asks (f a)) :
    Asks (x >>= f) := by
  intro c hc
  obtain ⟨a, -, ha⟩ := Outcome.bind_eq_ok.mp hc
  exact hf a c ha

theorem regular_withoutOptions {args : Parse FsCall} (h : Asks args) :
    WithoutOptions (regular args unique w : HandleM I Handled) :=
  withArgs_withoutOptions fun c hc => callAndReply_withoutOptions (h c hc)

end

/-- The requests on directories make calls of their own. -/
theorem ofDirectory_withoutOptions (p : M (DirectoryCall.Ans I) α) :
    WithoutOptions (ofDirectory p) := by
  induction p with
  | ret a => exact Obeys.ret trivial
  | err e => exact Obeys.err
  | panic q => exact Keeps.panic
  | act a k ih =>
    cases a with
    | copy | fs => exact Obeys.act trivial fun r _ => ih r

section

variable (h : MessageHeader) (r : Input) (w : Writer) (pageSize : Nat)

theorem lookupArgs_asks : Asks (lookupArgs h r) := .bind fun _ => .ok trivial

theorem forgetArgs_asks : Asks (forgetArgs h r) := .bind fun _ => .ok trivial

theorem doRenameArgs_asks (msgSize : Nat) (newdir : UInt64) (flags : UInt32) :
    Asks (doRenameArgs h r msgSize newdir flags) :=
  .bind fun _ => .bind fun _ => .bind fun _ => .bind fun _ => .ok trivial

theorem forget_withoutOptions : WithoutOptions (forget h r : HandleM I Handled) :=
  withArgs_withoutOptions fun c hc =>
    (call_withoutOptions (forgetArgs_asks h r c hc)).map

theorem read_withoutOptions : WithoutOptions (read h r w : HandleM I Handled) := by
  refine withArgs_withoutOptions fun args _ => ?_
  dsimp only
  split
  · exact Keeps.panic
  · refine (call_withoutOptions (by exact trivial)).bind fun result _ => ?_
    cases result with
    | error e => exact replyError_withoutOptions _
    | ok count =>
      refine WithoutOptions.of_wp (Q := fun _ _ => True) _ (fun _ => 0) [] ?_
      exact wp_bind.mpr (wp_attempt.mpr
        (Writer.wp_writeAll _ _ (fun _ _ _ _ => trivial) fun _ => trivial))

theorem getxattr_withoutOptions : WithoutOptions (getxattr h r w : HandleM I Handled) := by
  refine withArgs_withoutOptions fun args _ => withArgs_withoutOptions fun name _ => ?_
  split
  · exact replyError_withoutOptions _
  · exact regular_withoutOptions (.bind fun _ => .ok trivial)

theorem listxattr_withoutOptions : WithoutOptions (listxattr h r w : HandleM I Handled) := by
  refine withArgs_withoutOptions fun args _ => ?_
  dsimp only
  split
  · exact replyError_withoutOptions _
  · exact callAndReply_withoutOptions trivial

theorem negotiate_withoutOptions (args : InitInCompat × UInt32) :
    WithoutOptions (negotiate h w pageSize args : HandleM I Handled) := by
  unfold negotiate
  split
  · exact Keeps.panic
  · refine (call_withoutOptions (by exact trivial)).bind fun result _ => ?_
    cases result with
    | error e => exact replyError_withoutOptions _
    | ok want =>
      refine (call_withoutOptions (by exact trivial)).bind fun _ _ => ?_
      split
      · exact Keeps.panic
      · exact replyOk_withoutOptions _ _

theorem init_withoutOptions : WithoutOptions (init h r w pageSize : HandleM I Handled) := by
  refine withArgs_withoutOptions fun args _ => ?_
  split
  · exact replyError_withoutOptions _
  · split
    · exact replyOk_withoutOptions _ _
    · split
      · exact replyError_withoutOptions _
      · exact negotiate_withoutOptions h w pageSize args

theorem notSupported_withoutOptions (op : Unsupported) :
    WithoutOptions (notSupported h w op : HandleM I Handled) := by
  refine (call_withoutOptions (by exact trivial)).bind fun result _ => ?_
  cases result with
  | error e => exact replyError_withoutOptions _
  | ok u => exact Obeys.ret trivial

theorem tmpfile_withoutOptions : WithoutOptions (tmpfile h w : HandleM I Handled) := by
  refine (call_withoutOptions (by exact trivial)).bind fun result _ => ?_
  cases result with
  | error e => exact replyError_withoutOptions _
  | ok u => exact Keeps.panic

theorem destroy_withoutOptions : WithoutOptions (destroy : HandleM I Handled) :=
  (call_withoutOptions (by exact trivial)).bind fun _ _ =>
    (call_withoutOptions (by exact trivial)).map

theorem batchForget_withoutOptions : WithoutOptions (batchForget h r w : HandleM I Handled) := by
  refine withArgs_withoutOptions fun args _ => ?_
  dsimp only
  split
  · exact replyError_withoutOptions _
  · exact withArgs_withoutOptions fun requests _ =>
      (call_withoutOptions (by exact trivial)).map

/-- The opcodes whose arguments depend on the options. -/
def UsesOptions : Opcode → Prop
  | .setxattr => True
  | .symlink => True
  | .mknod => True
  | .mkdir => True
  | .create => True
  | _ => False

/-- **The other handlers do not load the options.** -/
theorem handle_withoutOptions [DirectoryIterator I] {op : Opcode} (hop : ¬ UsesOptions op) :
    WithoutOptions (handle h r w pageSize op : HandleM I Handled) := by
  cases op with
  | setxattr | symlink | mknod | mkdir | create => exact absurd trivial hop
  | getattr | setattr | unlink | rmdir | «open» | opendir | write | release | releasedir | flush
  | fsync | fsyncdir | removexattr | access | fallocate | lseek | copyFileRange =>
    exact regular_withoutOptions (.bind fun _ => .ok trivial)
  | readlink | statfs | syncfs => exact regular_withoutOptions (.ok (by exact trivial))
  | lookup => exact regular_withoutOptions (lookupArgs_asks h r)
  | rename | rename2 =>
    exact regular_withoutOptions (.bind fun _ => doRenameArgs_asks h _ _ _ _)
  | link => exact regular_withoutOptions (.bind fun _ => .bind fun _ => .ok trivial)
  | forget => exact forget_withoutOptions h r
  | batchForget => exact batchForget_withoutOptions h r w
  | read => exact read_withoutOptions h r w
  | getxattr => exact getxattr_withoutOptions h r w
  | listxattr => exact listxattr_withoutOptions h r w
  | readdir | readdirplus => exact ofDirectory_withoutOptions _
  | init => exact init_withoutOptions h r w pageSize
  | destroy => exact destroy_withoutOptions
  | interrupt => exact Obeys.ret trivial
  | getlk | setlk | setlkw | bmap | ioctl | poll | notifyReply =>
    exact notSupported_withoutOptions h w _
  | setupMapping | removeMapping => exact replyError_withoutOptions _
  | tmpFile => exact tmpfile_withoutOptions h w

end

/-! ## 2. The options that count -/

/-- **The two servers agree on the options** that decide how a message is read. -/
structure ReadAlike (o o' : FsOptions) : Prop where
  setxattrExt : o.contains FsOptions.SETXATTR_EXT = o'.contains FsOptions.SETXATTR_EXT
  securityCtx : o.contains FsOptions.SECURITY_CTX = o'.contains FsOptions.SECURITY_CTX
  createSuppGroup : o.contains FsOptions.CREATE_SUPP_GROUP = o'.contains FsOptions.CREATE_SUPP_GROUP

section

variable {o o' : FsOptions} (h : MessageHeader) (r : Input)

theorem ReadAlike.extensionsLoop (hsame : ReadAlike o o') (rounds : Nat) :
    ∀ (extensions : Extensions) (received : Bool) (buf : List UInt8),
      extensionsLoop o rounds extensions received buf =
        Server.extensionsLoop o' rounds extensions received buf := by
  induction rounds with
  | zero => exact fun _ _ _ => rfl
  | succ rounds ih =>
    intro extensions received buf
    unfold Server.extensionsLoop
    simp only [hsame.securityCtx, hsame.createSuppGroup, ih]

theorem ReadAlike.getExtensions (hsame : ReadAlike o o') (skip : Nat) (buf : List UInt8) :
    getExtensions o skip buf = Server.getExtensions o' skip buf := by
  have hloop : ∀ rounds extensions received bytes,
      Server.extensionsLoop o rounds extensions received bytes =
        Server.extensionsLoop o' rounds extensions received bytes := hsame.extensionsLoop
  unfold Server.getExtensions hasExtensions
  simp only [hsame.securityCtx, hsame.createSuppGroup, hloop]

theorem ReadAlike.setxattrArgs (hsame : ReadAlike o o') :
    setxattrArgs h r o = Server.setxattrArgs h r o' := by
  unfold Server.setxattrArgs setxattrFixed
  rw [hsame.setxattrExt]

/-- The options as the handlers use them. -/
theorem ReadAlike.truncate (hsame : ReadAlike o o') :
    ReadAlike (fromBitsTruncate o) (fromBitsTruncate o') := by
  have htruncate : ∀ x y : FsOptions, contains (fromBitsTruncate x) y =
      (x.contains y && contains FsOptions.ALL y) :=
    fun x y => History.contains_and x FsOptions.ALL y
  constructor
  · rw [htruncate, htruncate, hsame.setxattrExt]
  · rw [htruncate, htruncate, hsame.securityCtx]
  · rw [htruncate, htruncate, hsame.createSuppGroup]

end

theorem regularWith_given (args : FsOptions → Parse FsCall) (unique : UInt64) (w : Writer)
    (o : UInt64) : (regularWith args unique w : HandleM I Handled).given (knownOptions o) =
      (regular (args (fromBitsTruncate o)) unique w).given (knownOptions o) := rfl

/-- A request that depends on the options. -/
theorem regularWith_given_congr {args : FsOptions → Parse FsCall} {unique : UInt64} {w : Writer}
    {o o' : UInt64} (hargs : args (fromBitsTruncate o) =
      args (fromBitsTruncate o')) (hasks : ∀ o, Asks (args o)) :
    (regularWith args unique w : HandleM I Handled).given (knownOptions o) =
      (regularWith args unique w).given (knownOptions o') := by
  rw [regularWith_given, regularWith_given, ← hargs]
  exact (regular_withoutOptions (hasks _)).given o o'

theorem setxattrArgs_asks (h : MessageHeader) (r : Input) (o : FsOptions) :
    Asks (setxattrArgs h r o) := by
  refine .bind fun fixed => .bind fun buf => .bind fun split => ?_
  dsimp only
  split
  · exact fun _ hc => nomatch hc
  · exact .bind fun _ => .ok trivial

/-- **Which options count**: servers that agree on the three make the same of every message. -/
theorem handleMessage_given [DirectoryIterator I] {o o' : UInt64} (hsame : ReadAlike o o')
    (pageSize : Nat) (r : Input) (w : Writer) :
    (understood o pageSize r w : HandleM I Handled) = understood o' pageSize r w := by
  have hext := hsame.truncate.getExtensions
  unfold understood handleMessage withArgs
  cases r.readObj MessageHeader with
  | err | panic => rfl
  | ok p =>
    obtain ⟨h, rest⟩ := p
    dsimp only
    by_cases hlen : h.len.toNat > maxMessageLen
    · rw [if_pos hlen]
      exact (replyError_withoutOptions _).given o o'
    · rw [if_neg hlen]
      cases Opcode.tryFrom h.opcode with
      | none => exact (replyError_withoutOptions _).given o o'
      | some op =>
        dsimp only
        by_cases hop : UsesOptions op
        · cases op with
          | setxattr =>
            exact regularWith_given_congr (hsame.truncate.setxattrArgs h rest)
              (setxattrArgs_asks h rest)
          | symlink =>
            refine regularWith_given_congr (by simp only [symlinkArgs, hext]) fun o => ?_
            exact .bind fun _ => .bind fun _ => .bind fun _ => .bind fun _ => .bind fun _ =>
              .bind fun _ => .ok trivial
          | mknod =>
            refine regularWith_given_congr (by simp only [mknodArgs, hext]) fun o => ?_
            exact .bind fun _ => .bind fun _ => .bind fun _ => .bind fun _ => .ok trivial
          | mkdir =>
            refine regularWith_given_congr (by simp only [mkdirArgs, hext]) fun o => ?_
            exact .bind fun _ => .bind fun _ => .bind fun _ => .bind fun _ => .ok trivial
          | create =>
            refine regularWith_given_congr (by simp only [createArgs, hext]) fun o => ?_
            exact .bind fun _ => .bind fun _ => .bind fun _ => .bind fun _ => .ok trivial
          | _ => exact hop.elim
        · exact (handle_withoutOptions h rest w pageSize hop).given o o'

/-! ## 3. Migration -/

/-- **`Server::serialize` and `deserialize_and_apply`**: the state of the file system, and what
the destination becomes. -/
def Daemon.migrate (cfg : Config) (state : SerializedFs) (d : Daemon) :
    Outcome IoError DaemonPanic Unit × Daemon :=
  (ofSession (state.apply cfg)).run Daemon.perform d

/-- **Both sides understand the guest alike**: the flags of the file systems are the same, and
so is what is made of every message. -/
structure UnderstoodAlike (source dest : Daemon) : Prop where
  flags : ∀ f, f ≠ .trackMigrationInfo → dest.world.fs.flags f = source.world.fs.flags f
  messages : ∀ pageSize r w, (understood dest.options pageSize r w :
    HandleM (List LinuxDirent) Handled) = understood source.options pageSize r w

/-- The options that are lost. -/
def LosesOptions (options : FsOptions) : Prop :=
  options.contains FsOptions.SETXATTR_EXT ∨ options.contains FsOptions.SECURITY_CTX ∨
    options.contains FsOptions.CREATE_SUPP_GROUP

theorem Daemon.of_migrate {cfg : Config} {state : SerializedFs} {d d' : Daemon}
    (h : d.migrate cfg state = (.ok (), d')) :
    d'.options = d.options ∧
      (state.apply cfg).run World.performSession d.world = (.ok (), d'.world) := by
  unfold Daemon.migrate at h
  rw [Daemon.ofSession_run] at h
  rcases hr : (state.apply cfg).run World.performSession d.world with ⟨a | e | q, w'⟩ <;>
    rw [hr] at h
  · cases h
    exact ⟨rfl, rfl⟩
  · cases h
  · cases h

/-! ## 4. Messages that tell the options apart -/

/-- A message of `opcode`, with `body` behind the header. -/
def messageOf (opcode : Nat) (body : List UInt8) : List UInt8 :=
  leBytes 4 (40 + body.length) ++ leBytes 4 opcode ++ leBytes 8 1 ++ leBytes 8 1 ++
    List.replicate 16 0 ++ body

/-- The message in one buffer. -/
def inputOf (message : List UInt8) (h : 0 + totalLen [⟨0, message.length⟩] < usizeSize) : Input :=
  ⟨fun a => message.getD a 0, ⟨[⟨0, message.length⟩], 0, h⟩⟩

/-- Space for a reply. -/
def replySpace : Writer := ⟨[⟨4096, 1024⟩], 0, by decide⟩

/-- SETXATTR of the attribute `a` to nothing, in the layout with flags. -/
def setxattrMessage : List UInt8 := messageOf 21 (List.replicate 16 0 ++ [0x61, 0])

/-- MKDIR of `a`, without extensions. -/
def mkdirMessage : List UInt8 := messageOf 9 (List.replicate 8 0 ++ [0x61, 0])

/-- MKDIR of `a`, with the supplementary group 1000. -/
def mkdirGroupMessage : List UInt8 :=
  messageOf 9 (List.replicate 8 0 ++ [0x61, 0] ++ groupsBlock [1000] [])

/-- The handler goes on to call the file system. -/
def makesCall : HandleM (List LinuxDirent) Handled → Bool
  | .act (.fs _) _ => true
  | _ => false

/-- The groups of the MKDIR that is called. -/
def calledGroups : HandleM (List LinuxDirent) Handled → List UInt32
  | .act (.fs (.mkdir _ _ _ _ _ extensions)) _ => extensions.supGids
  | _ => []

/-- Some options with the three that count. -/
def countedOptions (setxattrExt securityCtx createSuppGroup : Bool) : FsOptions :=
  (if setxattrExt then FsOptions.SETXATTR_EXT else 0) |||
    (if securityCtx then FsOptions.SECURITY_CTX else 0) |||
    (if createSuppGroup then FsOptions.CREATE_SUPP_GROUP else 0)

theorem readAlike_counted (o : FsOptions) :
    ReadAlike o (countedOptions (o.contains FsOptions.SETXATTR_EXT)
      (o.contains FsOptions.SECURITY_CTX) (o.contains FsOptions.CREATE_SUPP_GROUP)) := by
  constructor
  all_goals
    generalize o.contains FsOptions.SETXATTR_EXT = a
    generalize o.contains FsOptions.SECURITY_CTX = b
    generalize o.contains FsOptions.CREATE_SUPP_GROUP = c
    revert a b c; decide

/-- SETXATTR is read in the layout that was negotiated. -/
theorem setxattr_makesCall : ∀ a b c : Bool, makesCall (understood (countedOptions a b c) 4096
    (inputOf setxattrMessage (by decide)) replySpace) = a := by
  decide +kernel

/-- MKDIR needs a security context if that was negotiated. -/
theorem mkdir_makesCall : ∀ a b c : Bool, makesCall (understood (countedOptions a b c) 4096
    (inputOf mkdirMessage (by decide)) replySpace) = !b := by
  decide +kernel

/-- The groups of MKDIR are read if that was negotiated. -/
theorem mkdir_calledGroups : ∀ a c : Bool, calledGroups (understood (countedOptions a false c) 4096
    (inputOf mkdirGroupMessage (by decide)) replySpace) = if c then [1000] else [] := by
  decide +kernel

/-- What is made of a message, in terms of the options that count. -/
theorem understood_counted (o : FsOptions) (pageSize : Nat) (r : Input) (w : Writer) :
    (understood o pageSize r w : HandleM (List LinuxDirent) Handled) =
      understood (countedOptions (o.contains FsOptions.SETXATTR_EXT)
        (o.contains FsOptions.SECURITY_CTX) (o.contains FsOptions.CREATE_SUPP_GROUP))
        pageSize r w :=
  handleMessage_given (readAlike_counted o) pageSize r w

/-- Servers that understand all messages as one without options does. -/
theorem not_losesOptions {o : FsOptions} (h : ∀ pageSize r w,
    (understood 0 pageSize r w : HandleM (List LinuxDirent) Handled) = understood o pageSize r w) :
    ¬ LosesOptions o := by
  have hzero : (0 : FsOptions) = countedOptions false false false := by decide
  have hmessage := fun r => (h 4096 r replySpace).trans (understood_counted o 4096 r replySpace)
  rw [hzero] at hmessage
  have hext : o.contains FsOptions.SETXATTR_EXT = false := by
    have := congrArg makesCall (hmessage (inputOf setxattrMessage (by decide)))
    rw [setxattr_makesCall, setxattr_makesCall] at this
    exact this.symm
  have hctx : o.contains FsOptions.SECURITY_CTX = false := by
    have := congrArg makesCall (hmessage (inputOf mkdirMessage (by decide)))
    rw [mkdir_makesCall, mkdir_makesCall] at this
    exact (Bool.not_inj this).symm
  have hgroup : o.contains FsOptions.CREATE_SUPP_GROUP = false := by
    have := congrArg calledGroups (hmessage (inputOf mkdirGroupMessage (by decide)))
    rw [hctx, mkdir_calledGroups, mkdir_calledGroups] at this
    cases hc : o.contains FsOptions.CREATE_SUPP_GROUP with
    | false => rfl
    | true =>
      rw [hc] at this
      exact absurd this (by decide)
  rintro (hset | hset | hset)
  · exact absurd (hext.symm.trans hset) nofun
  · exact absurd (hctx.symm.trans hset) nofun
  · exact absurd (hgroup.symm.trans hset) nofun

/-- **Messages are understood alike after a migration exactly if no such option was
negotiated.**  For every state of the source and every destination without options that has
applied it: the flags of the file system agree in any case. -/
theorem messages_understood_iff (cfg cfg' : Config) (mountPaths : List (Nat × Name))
    (source dest dest' : Daemon) (hfresh : dest.options = 0)
    (hmigrate : dest.migrate cfg' (source.world.fs.serialized cfg mountPaths) = (.ok (), dest')) :
    UnderstoodAlike source dest' ↔ ¬ LosesOptions source.options := by
  obtain ⟨hoptions, happly⟩ := Daemon.of_migrate hmigrate
  rw [hfresh] at hoptions
  constructor
  · intro h
    have hmessages := h.messages
    rw [hoptions] at hmessages
    exact not_losesOptions hmessages
  · intro hnone
    refine ⟨fun f hf => ?_, fun pageSize r w => ?_⟩
    · rw [(SerializedFs.of_apply_run happly).1 f hf]
      exact PassthroughFs.negotiatedOpts_flag _ hf
    · rw [hoptions]
      unfold LosesOptions at hnone
      have hext : contains source.options FsOptions.SETXATTR_EXT = false := by
        simpa using fun h => hnone (.inl h)
      have hctx : contains source.options FsOptions.SECURITY_CTX = false := by
        simpa using fun h => hnone (.inr (.inl h))
      have hgroup : contains source.options FsOptions.CREATE_SUPP_GROUP = false := by
        simpa using fun h => hnone (.inr (.inr h))
      refine handleMessage_given ⟨?_, ?_, ?_⟩ pageSize r w
      · rw [hext]; rfl
      · rw [hctx]; rfl
      · rw [hgroup]; rfl

/-- A source that has negotiated ACLs, and with them the longer SETXATTR. -/
def aclSource : Daemon :=
  (startedHistory.step aclConfig 4096 (initEvent aclRequiredFlags)).daemon

/-- A destination that has applied its state. -/
def aclDestination : Outcome IoError DaemonPanic Unit × Daemon :=
  Daemon.migrate aclConfig (aclSource.world.fs.serialized aclConfig []) ⟨0, freshWorld 10⟩

theorem aclDestination_eq : aclDestination = (.ok (), aclDestination.2) := by
  have h : aclDestination.1 = .ok () := by decide +kernel
  rw [← h]

/-- The condition at work. -/
theorem messages_understood_iff_acl :
    UnderstoodAlike aclSource aclDestination.2 ↔ ¬ LosesOptions aclSource.options :=
  messages_understood_iff aclConfig aclConfig [] aclSource ⟨0, freshWorld 10⟩ aclDestination.2 rfl
    aclDestination_eq

/-- **A migrated server misreads SETXATTR.**  The source has negotiated the longer layout of
SETXATTR.  It reads the message and calls the file system; the destination takes the words it
does not expect for the name, and fails. -/
theorem migrated_server_misreads_setxattr :
    aclDestination.1 = .ok () ∧
      makesCall (understood aclSource.options 4096 (inputOf setxattrMessage (by decide))
        replySpace) = true ∧
      makesCall (understood aclDestination.2.options 4096 (inputOf setxattrMessage (by decide))
        replySpace) = false ∧
      ¬ UnderstoodAlike aclSource aclDestination.2 := by
  have hsource : makesCall (understood aclSource.options 4096
      (inputOf setxattrMessage (by decide)) replySpace) = true := by decide +kernel
  have hdest : makesCall (understood aclDestination.2.options 4096
      (inputOf setxattrMessage (by decide)) replySpace) = false := by decide +kernel
  refine ⟨by decide +kernel, hsource, hdest, fun h => ?_⟩
  rw [h.messages, hsource] at hdest
  exact absurd hdest nofun

end Server

end Virtiofsd
