/-
  # What INIT and DESTROY negotiate

  The options of a session are kept twice: `Server::options` decides how messages are read,
  and `PassthroughFs` has flags of its own.  This module says what `PassthroughFs::init` does
  to the flags, for every way in which it can end, and compares the two after every message of
  a sequence of INIT, DESTROY and resets of the device.

  An INIT that the file system refuses is the exception: the file system has been wiped by
  then, and may have stored flags for the new session, while the options of the server are
  those of the session before.
-/
import Virtiofsd.Server.Daemon
import Virtiofsd.Lib.Guarded
import Virtiofsd.Lib.Runs

namespace Virtiofsd

open Lib Prog FsOptions

/-! ## 1. `PassthroughFs::init` -/

/-- `acl_required_flags`. -/
def aclRequiredFlags : FsOptions :=
  FsOptions.POSIX_ACL ||| FsOptions.DONT_MASK ||| FsOptions.SETXATTR_EXT

/-- The option is configured, and the guest has it. -/
def granted (mode : NegotiationMode) (capable required : FsOptions) : Bool :=
  mode != .never && capable.contains required

/-- The option is mandatory, and the guest does not have it. -/
def missing (mode : NegotiationMode) (capable required : FsOptions) : Bool :=
  mode == .always && !capable.contains required

theorem negotiate_eq (mode : NegotiationMode) (capable required opts : FsOptions) :
    PassthroughFs.negotiate mode capable required opts =
      if missing mode capable required then .error (.os EPROTO)
      else .ok (if granted mode capable required then opts ||| required else opts,
        granted mode capable required) := by
  unfold PassthroughFs.negotiate
  cases mode <;> cases h : capable.contains required <;> simp [missing, granted, h]

/-- What `init` returns. -/
def wantedOptions (readdirplus writeback killprivV2 posixAcl securityLabel allowMmap : Bool) :
    FsOptions :=
  let opts := if readdirplus then FsOptions.DO_READDIRPLUS ||| FsOptions.READDIRPLUS_AUTO else 0
  let opts := if writeback then opts ||| FsOptions.WRITEBACK_CACHE else opts
  let opts := if killprivV2 then opts ||| FsOptions.HANDLE_KILLPRIV_V2 else opts
  let opts := if posixAcl then opts ||| aclRequiredFlags else opts
  let opts := if securityLabel then opts ||| FsOptions.SECURITY_CTX else opts
  if allowMmap then opts ||| FsOptions.DIRECT_IO_ALLOW_MMAP else opts

namespace Config

variable (cfg : Config) (capable : FsOptions)

def grantsWriteback : Bool := cfg.writeback && capable.contains FsOptions.WRITEBACK_CACHE

def grantsSubmounts : Bool := cfg.announceSubmounts && capable.contains FsOptions.SUBMOUNTS

def grantsAcl : Bool := granted cfg.posixAcl capable aclRequiredFlags

def wants : FsOptions :=
  wantedOptions cfg.readdirplus (cfg.grantsWriteback capable)
    (cfg.killprivV2 && capable.contains FsOptions.HANDLE_KILLPRIV_V2) (cfg.grantsAcl capable)
    (granted cfg.securityLabel capable FsOptions.SECURITY_CTX) cfg.allowMmap

/-- **A mandatory option is missing.** -/
def MandatoryMissing : Prop :=
  missing cfg.posixAcl capable aclRequiredFlags ∨
    missing cfg.securityLabel capable FsOptions.SECURITY_CTX

instance : Decidable (cfg.MandatoryMissing capable) := by
  unfold MandatoryMissing; infer_instance

/-- **No flag is stored before the mandatory options are checked**, nor between the checks. -/
def StoresNothing : Prop :=
  cfg.grantsWriteback capable = false ∧ cfg.grantsSubmounts capable = false ∧
    cfg.grantsAcl capable = false

end Config

namespace World

/-- What `destroy` leaves. -/
def wiped (w : World) : World := (PassthroughFs.destroy.run performSession w).2

variable (w : World)

theorem destroy_run :
    PassthroughFs.destroy.run performSession w = (.ok (), w.wiped) := rfl

/-- The flags that `destroy` resets. -/
theorem wiped_flags {f : FsFlag} (hf : f ≠ .trackMigrationInfo) :
    w.wiped.fs.flags f = false := by
  cases f with
  | trackMigrationInfo => exact absurd rfl hf
  | _ => rfl

theorem wiped_not_contains : w.wiped.fs.inodes.contains ROOT_ID = false := rfl

/-- The world after a flag has been stored, if it has. -/
def enable (w : World) (f : FsFlag) (b : Bool) : World :=
  { w with fs := { w.fs with flags := fun f' => if f' = f then w.fs.flags f || b
                                                else w.fs.flags f' } }

theorem enable_flags (f f' : FsFlag) (b : Bool) :
    (w.enable f b).fs.flags f' = if f' = f then w.fs.flags f || b else w.fs.flags f' := rfl

variable {α : Type}

/-- Storing a flag under a condition, and going on. -/
theorem run_store_if (b : Bool) (f : FsFlag) (k : NeutralM α) :
    (liftM (if b = true then Prog.bind (query (.store f true)) fun _ => k else k) :
        SessionM α).run performSession w =
      (liftM k : SessionM α).run performSession (w.enable f b) := by
  cases b with
  | true =>
    have hw : (w.performSession (.act (.neutral (.query (.store f true))))).2 =
        w.enable f true := by
      simp only [performSession, perform, PassthroughFs.answer, enable, Bool.or_true]
      congr 2
      funext f'
      rw [Function.update_apply]
    change (liftM k : SessionM α).run performSession _ = _
    rw [hw]
  | false =>
    have hw : w.enable f false = w := by
      have hflags : (fun f' => if f' = f then w.fs.flags f || false else w.fs.flags f') =
          w.fs.flags := by
        funext f'
        split
        · next h => rw [h, Bool.or_false]
        · rfl
      rw [enable, hflags]
    rw [if_neg Bool.false_ne_true, hw]

variable {β : Type}

/-- Going on after a check that has passed, or not. -/
theorem run_ofExcept_bind (r : Except IoError α) (k : α → NeutralM β) :
    (liftM ((ofExcept r).bind k) : SessionM β).run performSession w =
      match r with
      | .ok a => (liftM (k a) : SessionM β).run performSession w
      | .error e => (.err e, w) := by
  cases r <;> rfl

variable (cfg : Config)

/-- **The negotiation**, step by step. -/
theorem negotiateOptions_run (capable : FsOptions) (w : World) :
    (liftM (PassthroughFs.negotiateOptions cfg capable) : SessionM FsOptions).run
        performSession w =
      let w₁ := (w.enable .writeback (cfg.grantsWriteback capable)).enable .announceSubmounts
        (cfg.grantsSubmounts capable)
      if missing cfg.posixAcl capable aclRequiredFlags then (.err (.os EPROTO), w₁)
      else
        let w₂ := w₁.enable .posixAcl (cfg.grantsAcl capable)
        if missing cfg.securityLabel capable FsOptions.SECURITY_CTX then
          (.err (.os EPROTO), w₂)
        else
          (.ok (cfg.wants capable),
            w₂.enable .supGroupExtension (capable.contains FsOptions.CREATE_SUPP_GROUP)) := by
  unfold PassthroughFs.negotiateOptions
  simp only [bind_eq]
  rw [run_store_if, run_store_if, run_ofExcept_bind, negotiate_eq,
    show FsOptions.POSIX_ACL ||| FsOptions.DONT_MASK ||| FsOptions.SETXATTR_EXT =
      aclRequiredFlags from rfl]
  by_cases hacl : missing cfg.posixAcl capable aclRequiredFlags
  · rw [if_pos hacl]
    simp only [hacl, if_true]
    rfl
  · rw [if_neg hacl]
    simp only [hacl]
    rw [run_store_if, run_ofExcept_bind, negotiate_eq]
    by_cases hsec : missing cfg.securityLabel capable FsOptions.SECURITY_CTX
    · rw [if_pos hsec]
      simp only [hsec, if_true]
      rfl
    · rw [if_neg hsec]
      simp only [hsec]
      rw [run_store_if]
      rfl

/-! ## 2. Opening the root -/

/-- **The host lets the daemon open the root**: by a file handle, or as a file while there are
descriptors left. -/
def OpensRoot (w : World) (cfg : Config) : Prop :=
  ∃ fd st, w.oracle w.calls (.openRoot (O_PATH ||| O_NOFOLLOW ||| O_CLOEXEC)) = .ok fd ∧
    w.oracle (w.calls + 1) (.statx fd none) = .ok st ∧
    if cfg.inodeFileHandles = .never then w.fs.guestFds ≠ 0
    else
      match w.oracle (w.calls + 2) (.nameToHandle fd none) with
      | .ok fh => w.oracle (w.calls + 3) (.mountFd fh.mntId) = .ok ()
      | .error e => (e = EOPNOTSUPP ∨ e = EOVERFLOW) ∧ cfg.inodeFileHandles ≠ .mandatory ∧
          w.fs.guestFds ≠ 0

/-- The descriptor of the root becomes a file or a handle. -/
def KeepsRoot (w : World) : Option FileHandle → Prop
  | some fh => w.oracle w.calls (.mountFd fh.mntId) = .ok ()
  | none => w.fs.guestFds ≠ 0

/-- How the root is opened, or not, and that the flags stay. -/
inductive RootEnd (fs : PassthroughFs) (opens : Prop) {β : Type} :
    Outcome IoError PanicSite β × World → Prop where
  | ok {a : β} {w' : World} (h : opens) (hflags : w'.fs.flags = fs.flags)
      (hs : w'.fs.inodes = fs.inodes) : RootEnd fs opens (.ok a, w')
  | err {e : IoError} {w' : World} (h : ¬ opens) (hflags : w'.fs.flags = fs.flags) :
      RootEnd fs opens (.err e, w')

theorem RootEnd.congr {fs : PassthroughFs} {p q : Prop}
    {res : Outcome IoError PanicSite β × World} (h : RootEnd fs p res) (hpq : p ↔ q) :
    RootEnd fs q res := by
  cases h with
  | ok h hflags hs => exact .ok (hpq.mp h) hflags hs
  | err h hflags => exact .err (mt hpq.mpr h) hflags

theorem run_host_bind (c : HostCall) (k : c.Ans → NeutralM β) :
    (liftM ((host c).bind k) : SessionM β).run performSession w =
      (liftM (k (w.oracle w.calls c)) : SessionM β).run performSession w.called := rfl

theorem run_errno_bind (r : Except Errno α) (k : α → NeutralM β) :
    (liftM ((errno r).bind k) : SessionM β).run performSession w =
      match r with
      | .ok a => (liftM (k a) : SessionM β).run performSession w
      | .error e => (.err (.os e), w) := by
  cases r <;> rfl

/-- A program that only calls the host. -/
abbrev HostOnly (p : NeutralM α) : Prop :=
  Keeps (fun a => ∃ c, a = .host c) (fun _ _ => True) p fun _ => True

theorem HostOnly.run_fs {p : NeutralM α} (hp : HostOnly p) :
    ∀ w : World, ((liftM p : SessionM α).run performSession w).2.fs = w.fs := by
  induction p with
  | ret | err | panic => exact fun _ => rfl
  | act a k ih =>
    obtain ⟨c, rfl⟩ := hp.1
    exact fun w => ih _ (hp.2 _ () trivial) _

theorem verifyHandle_hostOnly (f : FileOrHandle) :
    HostOnly (verifyHandle cfg f).attempt := by
  refine Obeys.attempt (Q := fun _ => True) ?_
  unfold verifyHandle
  split
  · have hf : HostOnly f.toSerializable := by
      cases f with
      | handle h => exact Obeys.ret trivial
      | invalid e => exact Obeys.err
      | file fd =>
        refine (Obeys.perform ⟨_, rfl⟩).bind fun r _ => ?_
        cases r with
        | ok h => exact Obeys.ret trivial
        | error e => exact Obeys.err
    exact hf.map
  · exact Obeys.ret trivial

/-- The check of the file handle does not keep the root from being opened. -/
theorem verifyHandle_attempt_bind (f : FileOrHandle)
    (k : Except IoError (Option SerializableFileHandle) → β) :
    ∃ b w', (liftM ((verifyHandle cfg f).attempt.bind fun r => .ret (k r)) : SessionM β).run
      performSession w = (.ok b, w') ∧ w'.fs = w.fs := by
  have hverify : NoPanic (verifyHandle cfg f) fun _ => True := verifyHandle_meets cfg f
  obtain ⟨r, w', hr, -⟩ := hverify.attempt_session w
  have hfs := (verifyHandle_hostOnly cfg f).run_fs w
  rw [hr] at hfs
  refine ⟨k r, w', ?_, hfs⟩
  rw [session_bind, run_bind_of_ok _ hr]
  rfl

/-- The second half of `open_root_node`. -/
theorem rootFile_end (fd : Fd) (st : StatExt) (handle : Option FileHandle)
    (hmount : handle.isSome → cfg.mountFds = true) :
    RootEnd w.fs (w.KeepsRoot handle)
      ((liftM ((newFileOrHandle cfg fd handle).bind fun f =>
        (verifyHandle cfg f).attempt.bind fun r => .ret (f, st, r)) :
          SessionM _).run performSession w) := by
  cases handle with
  | some fh =>
    unfold newFileOrHandle makeFileHandleOpenable KeepsRoot
    simp only [hmount rfl, bind_eq, pure_eq, bind_assoc, Bool.not_true,
      Bool.false_eq_true, if_false]
    rw [run_host_bind, run_ofExcept_bind]
    cases hfd : w.oracle w.calls (.mountFd fh.mntId) with
    | error e => exact .err (by simp) rfl
    | ok u =>
      obtain ⟨b, w', hr, hfs⟩ := w.called.verifyHandle_attempt_bind cfg (.handle fh)
        fun r => (FileOrHandle.handle fh, st, r)
      simp only [bind_ret]
      rw [hr]
      exact .ok trivial (by rw [hfs]; rfl) (by rw [hfs]; rfl)
  | none =>
    unfold newFileOrHandle allocateFd KeepsRoot
    by_cases hfds : w.fs.guestFds = 0
    · have hact : w.performSession (.act (.neutral (.query .allocateFd))) = (false, w) := by
        simp only [performSession, perform, PassthroughFs.answer, hfds, if_true]
      have hrun : (liftM (query .allocateFd) : SessionM Bool).run performSession w =
          (.ok false, w) := congrArg (fun p : Bool × World => (Outcome.ok p.1, p.2)) hact
      simp only [bind_eq, bind_assoc]
      rw [session_bind, run_bind_of_ok _ hrun]
      exact .err (not_not_intro hfds) rfl
    · obtain ⟨b, w', hr, hfs⟩ := verifyHandle_attempt_bind
        { w with fs := { w.fs with guestFds := w.fs.guestFds - 1 } } cfg (.file fd)
        fun r => (FileOrHandle.file fd, st, r)
      have hact : w.performSession (.act (.neutral (.query .allocateFd))) =
          (true, { w with fs := { w.fs with guestFds := w.fs.guestFds - 1 } }) := by
        simp only [performSession, perform, PassthroughFs.answer, hfds, if_false]
      have hrun : (liftM (query .allocateFd) : SessionM Bool).run performSession w =
          (.ok true, { w with fs := { w.fs with guestFds := w.fs.guestFds - 1 } }) :=
        congrArg (fun p : Bool × World => (Outcome.ok p.1, p.2)) hact
      simp only [bind_eq, bind_assoc]
      rw [session_bind, run_bind_of_ok _ hrun]
      simp only [Bool.not_true, Bool.false_eq_true, if_false, pure_eq, bind_ret]
      rw [hr]
      exact .ok hfds (by rw [hfs]) (by rw [hfs])

theorem openRoot_end :
    RootEnd w.fs (w.OpensRoot cfg)
      ((liftM (PassthroughFs.openRoot cfg) : SessionM (FileOrHandle × StatExt ×
        Except IoError (Option SerializableFileHandle))).run performSession w) := by
  unfold PassthroughFs.openRoot
  simp only [bind_eq, pure_eq]
  rw [run_host_bind, run_errno_bind]
  cases hopen : w.oracle w.calls (.openRoot (O_PATH ||| O_NOFOLLOW ||| O_CLOEXEC)) with
  | error e =>
    refine .err ?_ rfl
    rintro ⟨fd, st, hfd, -⟩
    rw [hopen] at hfd
    cases hfd
  | ok fd =>
    dsimp only
    rw [statx, bind_eq, bind_assoc, run_host_bind, run_ofExcept_bind]
    cases hstat : w.called.oracle w.called.calls (.statx fd none) with
    | error e =>
      refine .err ?_ rfl
      rintro ⟨fd', st, hfd, hst, -⟩
      rw [hopen] at hfd
      cases hfd
      exact absurd (hst.symm.trans hstat) nofun
    | ok st =>
      dsimp only
      have hiff : w.OpensRoot cfg ↔
          if cfg.inodeFileHandles = .never then w.fs.guestFds ≠ 0
          else
            match w.oracle (w.calls + 2) (.nameToHandle fd none) with
            | .ok fh => w.oracle (w.calls + 3) (.mountFd fh.mntId) = .ok ()
            | .error e => (e = EOPNOTSUPP ∨ e = EOVERFLOW) ∧
                cfg.inodeFileHandles ≠ .mandatory ∧ w.fs.guestFds ≠ 0 := by
        constructor
        · rintro ⟨fd', st', hfd, hst, h⟩
          rw [hopen] at hfd
          cases hfd
          exact h
        · exact fun h => ⟨fd, st, hopen, hstat, h⟩
      rw [hiff]
      unfold getFileHandleOpt
      by_cases hnever : cfg.inodeFileHandles = .never
      · simp only [hnever, if_true]
        exact w.called.called.rootFile_end cfg fd st none (by simp)
      · simp only [hnever, if_false, bind_eq, bind_assoc]
        rw [run_host_bind]
        cases hname : w.oracle (w.calls + 2) (.nameToHandle fd none) with
        | ok fh =>
          rw [show w.called.called.oracle w.called.called.calls (.nameToHandle fd none) = .ok fh
            from hname]
          exact w.called.called.called.rootFile_end cfg fd st (some fh)
            fun _ => mountFds_of_fileHandles hnever
        | error e =>
          rw [show w.called.called.oracle w.called.called.calls (.nameToHandle fd none) = .error e
            from hname]
          simp only [mountFds_of_fileHandles hnever, Bool.not_true, Bool.false_eq_true, and_false,
            if_false]
          by_cases hother : e ≠ EOPNOTSUPP ∧ e ≠ EOVERFLOW
          · rw [if_pos hother]
            exact .err (fun h => h.1.elim hother.1 hother.2) rfl
          · have he : e = EOPNOTSUPP ∨ e = EOVERFLOW := by tauto
            rw [if_neg hother]
            by_cases hmandatory : cfg.inodeFileHandles = .mandatory
            · rw [if_pos hmandatory]
              exact .err (fun h => h.2.1 hmandatory) rfl
            · rw [if_neg hmandatory]
              have hfile := w.called.called.called.rootFile_end cfg fd st none (by simp)
              refine hfile.congr ⟨fun h => ⟨he, hmandatory, h⟩, fun h => h.2.2⟩

theorem openRootNode_end (hnew : w.fs.inodes.contains ROOT_ID = false) :
    ∃ o w', (PassthroughFs.openRootNode cfg).run performSession w = (o, w') ∧
      w'.fs.flags = w.fs.flags ∧
      (o = .ok () ∧ w.OpensRoot cfg ∨ (∃ e, o = .err e) ∧ ¬ w.OpensRoot cfg) := by
  have hopen := w.openRoot_end cfg
  unfold PassthroughFs.openRootNode
  simp only [bind_eq, run_bind]
  generalize (liftM (PassthroughFs.openRoot cfg) : SessionM (FileOrHandle × StatExt ×
    Except IoError (Option SerializableFileHandle))).run performSession w = res at hopen
  cases hopen with
  | err h hflags => exact ⟨_, _, rfl, hflags, .inr ⟨⟨_, rfl⟩, h⟩⟩
  | @ok found w₁ h hflags hs =>
    obtain ⟨f, st, fileHandle⟩ := found
    have hinsert := newInode_of_not_contains
      (c := ⟨⟨ROOT_ID, f, st.ids, st.st.mode⟩, 2, PassthroughFs.rootInfo fileHandle⟩)
      (s := w₁.fs.inodes) (by rw [hs]; exact hnew)
    simp only [newInode_run hinsert, Bool.not_true, Bool.false_eq_true, ↓reduceIte,
      pure_eq, run_ret]
    exact ⟨_, _, rfl, hflags, .inl ⟨rfl, h⟩⟩

/-- The flags of a session that has been negotiated, up to `sup_group_extension`. -/
structure Negotiated (cfg : Config) (capable : FsOptions) (flags : FsFlag → Bool) : Prop where
  writeback : flags .writeback = cfg.grantsWriteback capable
  announceSubmounts : flags .announceSubmounts = cfg.grantsSubmounts capable
  posixAcl : flags .posixAcl = cfg.grantsAcl capable

/-- **How `init` ends**, and with which flags. -/
inductive InitEnd (w : World) (cfg : Config) (capable : FsOptions) :
    Outcome IoError PanicSite FsOptions × World → Prop where
  | accepted {w' : World} (hroot : w.wiped.OpensRoot cfg) (hall : ¬ cfg.MandatoryMissing capable)
      (hflags : Negotiated cfg capable w'.fs.flags)
      (hsup : w'.fs.flags .supGroupExtension = capable.contains FsOptions.CREATE_SUPP_GROUP) :
      InitEnd w cfg capable (.ok (cfg.wants capable), w')
  | refused {e : IoError} {w' : World} (hroot : w.wiped.OpensRoot cfg)
      (hmissing : cfg.MandatoryMissing capable) (hflags : Negotiated cfg capable w'.fs.flags)
      (hsup : w'.fs.flags .supGroupExtension = false) : InitEnd w cfg capable (.err e, w')
  | noRoot {e : IoError} {w' : World} (hroot : ¬ w.wiped.OpensRoot cfg)
      (hflags : ∀ f, f ≠ .trackMigrationInfo → w'.fs.flags f = false) :
      InitEnd w cfg capable (.err e, w')

theorem init_end (capable : FsOptions) :
    InitEnd w cfg capable ((PassthroughFs.init cfg capable).run performSession w) := by
  unfold PassthroughFs.init
  simp only [bind_eq]
  rw [run_bind_of_ok _ w.destroy_run]
  obtain ⟨o, w', hrun, hflags, ⟨rfl, hroot⟩ | ⟨⟨e, rfl⟩, hroot⟩⟩ :=
    w.wiped.openRootNode_end cfg w.wiped_not_contains
  · rw [run_bind_of_ok _ hrun, negotiateOptions_run]
    have hwiped : ∀ f, f ≠ .trackMigrationInfo → w'.fs.flags f = false := by
      intro f hf
      rw [hflags]
      exact w.wiped_flags hf
    by_cases hacl : missing cfg.posixAcl capable aclRequiredFlags
    · have hgrants : cfg.grantsAcl capable = false := by
        simp only [missing, Bool.and_eq_true, Bool.not_eq_true'] at hacl
        simp only [Config.grantsAcl, granted, hacl.2, Bool.and_false]
      simp only [hacl, if_true]
      refine .refused hroot (.inl hacl) ⟨?_, ?_, ?_⟩ ?_
      · simp [enable_flags, hwiped]
      · simp [enable_flags, hwiped]
      · simp [enable_flags, hwiped, hgrants]
      · simp [enable_flags, hwiped]
    · simp only [hacl]
      by_cases hsec : missing cfg.securityLabel capable FsOptions.SECURITY_CTX
      · simp only [hsec, if_true]
        refine .refused hroot (.inr hsec) ⟨?_, ?_, ?_⟩ ?_ <;> simp [enable_flags, hwiped]
      · simp only [hsec]
        refine .accepted hroot (fun h => h.elim hacl hsec) ⟨?_, ?_, ?_⟩ ?_ <;>
          simp [enable_flags, hwiped]
  · rw [run_bind_of_err _ hrun]
    refine .noRoot hroot fun f hf => ?_
    rw [hflags]
    exact w.wiped_flags hf

end World

/-! ## 3. What a message asks for -/

namespace Server

open Fuse

/-- What a message asks of the file system, as far as the options go. -/
inductive Demand where
  | nothing
  | init (capable : FsOptions)
  | destroy

/-- An INIT that reaches the file system: it can be read, and its version is supported. -/
def initDemand (pageSize : Nat) (r : Input) : Demand :=
  match initArgs r with
  | .ok args =>
    if args.1.major = KERNEL_VERSION ∧ MIN_KERNEL_MINOR_VERSION ≤ args.1.minor ∧ pageSize ≠ 0 then
      .init (capableOf args)
    else .nothing
  | _ => .nothing

/-- The demand of a message. -/
def demandOf (pageSize : Nat) (r : Input) : Demand :=
  match r.readObj MessageHeader with
  | .ok (h, rest) =>
    if h.len.toNat > maxMessageLen then .nothing
    else
      match Opcode.tryFrom h.opcode with
      | some .init => initDemand pageSize rest
      | some .destroy => .destroy
      | _ => .nothing
  | _ => .nothing

/-- The daemon after a demand. -/
def Daemon.after (cfg : Config) (d : Daemon) : Demand → Daemon
  | .nothing => d
  | .destroy => ⟨0, d.world.wiped⟩
  | .init capable =>
    match (PassthroughFs.init cfg capable).run World.performSession d.world with
    | (.ok want, w) => ⟨enabledOptions capable want, w⟩
    | (.err _, w) => { d with world := w }
    | (.panic _, w) => { d with world := w }

section

variable {cfg : Config} {d : Daemon} {h : MessageHeader} {r : Input} {w : Writer}
  {pageSize : Nat}

theorem destroy_daemon :
    (d.serve cfg (destroy : HandleM (List LinuxDirent) Handled)).2 = ⟨0, d.world.wiped⟩ := rfl

theorem negotiate_daemon (args : InitInCompat × UInt32) (hpage : pageSize ≠ 0) :
    (d.serve cfg (negotiate h w pageSize args)).2 = d.after cfg (.init (capableOf args)) := by
  have hend := d.world.init_end cfg (capableOf args)
  unfold negotiate Daemon.after
  rw [if_neg hpage]
  simp only [bind_eq]
  rw [Daemon.serve_call_bind]
  have hrun : (implement cfg (.init (capableOf args))).run Daemon.perform d =
      ((ofSession (PassthroughFs.init cfg (capableOf args))).attempt.bind fun r =>
        .ret (r.map id)).run Daemon.perform d := rfl
  rw [hrun, run_bind, run_attempt, Daemon.ofSession_run]
  generalize (PassthroughFs.init cfg (capableOf args)).run World.performSession d.world = res
    at hend
  cases hend with
  | @accepted w' hroot hall hflags hsup =>
    change (Daemon.serve cfg (Prog.bind (call (FsCall.storeOptions
      (enabledOptions (capableOf args) (cfg.wants (capableOf args))))) fun _ => _)
        { d with world := w' }).2 = _
    rw [Daemon.serve_call_bind]
    change (Daemon.serve cfg (if _ then _ else _) ⟨_, w'⟩).2 = _
    split
    · rfl
    · exact replyOk_daemon _ _
  | refused | noRoot => exact replyError_daemon _

theorem init_daemon :
    (d.serve cfg (init h r w pageSize)).2 = d.after cfg (initDemand pageSize r) := by
  unfold init initDemand withArgs
  cases initArgs r with
  | err | panic => rfl
  | ok args =>
    dsimp only
    by_cases hbelow : args.1.major < KERNEL_VERSION
    · rw [if_pos hbelow, if_neg fun hv => (UInt32.ne_of_lt hbelow) hv.1]
      exact replyError_daemon _
    · rw [if_neg hbelow]
      by_cases habove : args.1.major > KERNEL_VERSION
      · rw [if_pos habove, if_neg fun hv => (UInt32.ne_of_lt habove) hv.1.symm]
        exact replyOk_daemon _ _
      · have hmajor : args.1.major = KERNEL_VERSION :=
          UInt32.le_antisymm (UInt32.not_lt.mp habove) (UInt32.not_lt.mp hbelow)
        rw [if_neg habove]
        by_cases hminor : args.1.minor < MIN_KERNEL_MINOR_VERSION
        · rw [if_pos hminor, if_neg fun hv => UInt32.not_lt.mpr hv.2.1 hminor]
          exact replyError_daemon _
        · rw [if_neg hminor]
          by_cases hpage : pageSize = 0
          · rw [if_neg fun hv => hv.2.2 hpage]
            unfold negotiate
            rw [if_pos hpage]
            rfl
          · rw [if_pos ⟨hmajor, UInt32.not_lt.mp hminor, hpage⟩]
            exact negotiate_daemon args hpage

/-- The message is an INIT or a DESTROY, if it has a header at all. -/
def Input.IsSession (r : Input) : Prop :=
  ∀ h rest, r.readObj MessageHeader = .ok (h, rest) →
    Opcode.tryFrom h.opcode = some .init ∨ Opcode.tryFrom h.opcode = some .destroy

/-- **What a message does to the daemon is what it demands.** -/
theorem message_daemon (hr : r.IsSession) :
    (d.serve cfg (handleMessage pageSize r w)).2 = d.after cfg (demandOf pageSize r) := by
  unfold handleMessage demandOf withArgs
  cases hheader : r.readObj MessageHeader with
  | err | panic => rfl
  | ok p =>
    obtain ⟨h, rest⟩ := p
    dsimp only
    by_cases hlen : h.len.toNat > maxMessageLen
    · rw [if_pos hlen, if_pos hlen]
      exact replyError_daemon _
    · rw [if_neg hlen, if_neg hlen]
      rcases hr h rest hheader with hop | hop
      · rw [hop]
        exact init_daemon
      · rw [hop]
        exact destroy_daemon

end

/-! ## 4. Sequences of messages -/

/-- **What happens to a session**: a message of the guest, or a reset of the device, for which
the backend calls `destroy`. -/
inductive Event where
  | message (r : Input) (w : Writer)
  | reset

/-- What is demanded. -/
def Event.demand (pageSize : Nat) : Event → Demand
  | message r _ => demandOf pageSize r
  | reset => .destroy

def Event.IsSession : Event → Prop
  | message r _ => r.IsSession
  | reset => True

/-- The daemon, and what the guest was capable of when INIT last succeeded, unless a DESTROY or
an INIT that failed came after it. -/
structure History where
  daemon : Daemon
  last : Option FsOptions

namespace History

variable (cfg : Config) (pageSize : Nat)

/-- The successful INIT to go by, after a demand. -/
def lastAfter (s : History) : Demand → Option FsOptions
  | .nothing => s.last
  | .destroy => none
  | .init capable =>
    match (PassthroughFs.init cfg capable).run World.performSession s.daemon.world with
    | (.ok _, _) => some capable
    | (.err _, _) => none
    | (.panic _, _) => none

/-- The next message is served, or the device is reset. -/
def step (s : History) (e : Event) : History where
  daemon :=
    match e with
    | .message r w => (s.daemon.serve cfg (handleMessage pageSize r w)).2
    | .reset => (s.daemon.serve cfg (destroy : HandleM (List LinuxDirent) Handled)).2
  last := s.lastAfter cfg (e.demand pageSize)

/-- **The flags of the file system agree with the options of the server**, which are among the
capabilities of the guest. -/
structure Coherent (s : History) : Prop where
  writeback : s.daemon.world.fs.flags .writeback =
    contains s.daemon.options FsOptions.WRITEBACK_CACHE
  posixAcl : s.daemon.world.fs.flags .posixAcl =
    contains s.daemon.options aclRequiredFlags
  supGroupExtension : s.daemon.world.fs.flags .supGroupExtension =
    contains s.daemon.options FsOptions.CREATE_SUPP_GROUP
  announceSubmounts : s.daemon.world.fs.flags .announceSubmounts = true →
    contains s.daemon.options FsOptions.SUBMOUNTS
  options : s.daemon.options &&& s.last.getD 0 = s.daemon.options

/-- **When an INIT keeps that.**  Either it succeeds, or there are no options to lose and it
fails before it has stored a flag. -/
def SafeInit (s : History) (capable : FsOptions) : Prop :=
  s.daemon.world.wiped.OpensRoot cfg ∧ ¬ cfg.MandatoryMissing capable ∨
    s.daemon.options = 0 ∧ (s.daemon.world.wiped.OpensRoot cfg → cfg.StoresNothing capable)

/-- The condition on a step. -/
def SafeStep (s : History) (e : Event) : Prop :=
  ∀ capable, e.demand pageSize = .init capable → s.SafeInit cfg capable

variable {cfg pageSize} {s : History} {e : Event}

theorem step_daemon (he : e.IsSession) :
    (s.step cfg pageSize e).daemon = s.daemon.after cfg (e.demand pageSize) := by
  cases e with
  | message r w => exact message_daemon he
  | reset => rfl

/-- Options that both sides have. -/
theorem contains_and (a b x : FsOptions) :
    contains (a &&& b) x = (a.contains x && b.contains x) := by
  rw [Bool.eq_iff_iff, Bool.and_eq_true]
  simp only [contains, beq_iff_eq]
  constructor
  · intro h
    constructor
    · calc a &&& x = a &&& (a &&& b &&& x) := by rw [h]
        _ = a &&& b &&& x := by rw [← UInt64.and_assoc, ← UInt64.and_assoc, UInt64.and_self]
        _ = x := h
    · calc b &&& x = b &&& (a &&& b &&& x) := by rw [h]
        _ = a &&& b &&& x := by
          rw [UInt64.and_comm a b, ← UInt64.and_assoc, ← UInt64.and_assoc, UInt64.and_self]
        _ = x := h
  · rintro ⟨ha, hb⟩
    rw [UInt64.and_assoc, hb, ha]

/-- What INIT enables of what the file system wants. -/
theorem contains_enabled (cfg : Config) (capable x : FsOptions) :
    contains (enabledOptions capable (cfg.wants capable)) x =
      (capable.contains x && contains (cfg.wants capable ||| supported) x) :=
  contains_and _ _ _

theorem wanted_writeback : ∀ a b c d e f : Bool,
    contains (wantedOptions a b c d e f ||| supported) FsOptions.WRITEBACK_CACHE = b := by
  decide

theorem wanted_acl : ∀ a b c d e f : Bool,
    contains (wantedOptions a b c d e f ||| supported) aclRequiredFlags = d := by
  decide

theorem wanted_supGroup : ∀ a b c d e f : Bool,
    contains (wantedOptions a b c d e f ||| supported) FsOptions.CREATE_SUPP_GROUP := by
  decide

theorem wanted_submounts : ∀ a b c d e f : Bool,
    contains (wantedOptions a b c d e f ||| supported) FsOptions.SUBMOUNTS := by
  decide

/-- An INIT that succeeds leaves a coherent state. -/
theorem coherent_accepted {capable : FsOptions} {w : World}
    (hflags : World.Negotiated cfg capable w.fs.flags)
    (hsup : w.fs.flags .supGroupExtension = capable.contains FsOptions.CREATE_SUPP_GROUP) :
    Coherent ⟨⟨enabledOptions capable (cfg.wants capable), w⟩, some capable⟩ where
  writeback := by
    rw [contains_enabled, hflags.writeback, Config.wants, wanted_writeback, Config.grantsWriteback]
    cases capable.contains FsOptions.WRITEBACK_CACHE <;> simp
  posixAcl := by
    rw [contains_enabled, hflags.posixAcl, Config.wants, wanted_acl, Config.grantsAcl, granted]
    cases capable.contains aclRequiredFlags <;> simp
  supGroupExtension := by
    rw [contains_enabled, hsup, Config.wants, wanted_supGroup, Bool.and_true]
  announceSubmounts := by
    intro h
    rw [contains_enabled, Config.wants, wanted_submounts, Bool.and_true]
    rw [hflags.announceSubmounts, Config.grantsSubmounts] at h
    exact (Bool.and_eq_true _ _ ▸ h).2
  options := by
    simp only [Option.getD_some, enabledOptions]
    rw [UInt64.and_assoc, UInt64.and_comm _ capable, ← UInt64.and_assoc, UInt64.and_self]

/-- Without options, coherence means that no flag is set. -/
theorem coherent_none {d : Daemon} :
    Coherent ⟨d, none⟩ ↔ d.options = 0 ∧ ∀ f, f ≠ .trackMigrationInfo →
      d.world.fs.flags f = false := by
  constructor
  · intro h
    have hzero : d.options = 0 := by
      have := h.options
      rw [Option.getD_none, UInt64.and_zero] at this
      exact this.symm
    refine ⟨hzero, fun f hf => ?_⟩
    cases f with
    | trackMigrationInfo => exact absurd rfl hf
    | writeback => exact h.writeback.trans (by rw [hzero]; rfl)
    | posixAcl => exact h.posixAcl.trans (by rw [hzero]; rfl)
    | supGroupExtension => exact h.supGroupExtension.trans (by rw [hzero]; rfl)
    | announceSubmounts =>
      refine Bool.eq_false_iff.mpr fun hset => ?_
      have hcontains := h.announceSubmounts hset
      rw [hzero] at hcontains
      exact absurd hcontains (by decide)
  · rintro ⟨hzero, hflags⟩
    constructor
    · exact (hflags .writeback nofun).trans (by rw [hzero]; rfl)
    · exact (hflags .posixAcl nofun).trans (by rw [hzero]; rfl)
    · exact (hflags .supGroupExtension nofun).trans (by rw [hzero]; rfl)
    · exact fun hset => absurd ((hflags .announceSubmounts nofun).symm.trans hset) nofun
    · rw [hzero, UInt64.zero_and]

/-- **One INIT** keeps coherence exactly if it is safe. -/
theorem coherent_init_iff (s : History) (capable : FsOptions) :
    Coherent ⟨s.daemon.after cfg (.init capable), s.lastAfter cfg (.init capable)⟩ ↔
      s.SafeInit cfg capable := by
  have hend := s.daemon.world.init_end cfg capable
  unfold Daemon.after lastAfter SafeInit
  dsimp only
  generalize (PassthroughFs.init cfg capable).run World.performSession s.daemon.world = res at hend
  cases hend with
  | accepted hroot hall hflags hsup =>
    exact iff_of_true (coherent_accepted hflags hsup) (.inl ⟨hroot, hall⟩)
  | @refused e w' hroot hmissing hflags hsup =>
    rw [coherent_none]
    constructor
    · rintro ⟨hzero, hoff⟩
      refine .inr ⟨hzero, fun _ => ⟨?_, ?_, ?_⟩⟩
      · exact hflags.writeback.symm.trans (hoff _ nofun)
      · exact hflags.announceSubmounts.symm.trans (hoff _ nofun)
      · exact hflags.posixAcl.symm.trans (hoff _ nofun)
    · rintro (⟨-, hall⟩ | ⟨hzero, hstores⟩)
      · exact absurd hmissing hall
      · obtain ⟨hwriteback, hsubmounts, hacl⟩ := hstores hroot
        refine ⟨hzero, fun f hf => ?_⟩
        cases f with
        | trackMigrationInfo => exact absurd rfl hf
        | writeback => exact hflags.writeback.trans hwriteback
        | announceSubmounts => exact hflags.announceSubmounts.trans hsubmounts
        | posixAcl => exact hflags.posixAcl.trans hacl
        | supGroupExtension => exact hsup
  | noRoot hroot hflags =>
    rw [coherent_none]
    constructor
    · exact fun h => .inr ⟨h.1, fun hopens => absurd hopens hroot⟩
    · rintro (⟨hopens, -⟩ | ⟨hzero, -⟩)
      · exact absurd hopens hroot
      · exact ⟨hzero, hflags⟩

/-- **One message** keeps coherence exactly if it is safe. -/
theorem coherent_step_iff (s : History) (e : Event) (he : e.IsSession) (hs : s.Coherent) :
    (s.step cfg pageSize e).Coherent ↔ s.SafeStep cfg pageSize e := by
  have hstep : s.step cfg pageSize e =
      ⟨s.daemon.after cfg (e.demand pageSize), s.lastAfter cfg (e.demand pageSize)⟩ := by
    rw [← step_daemon he]
    rfl
  rw [hstep, SafeStep]
  cases e.demand pageSize with
  | nothing => exact iff_of_true hs nofun
  | destroy =>
    refine iff_of_true (coherent_none.mpr ⟨rfl, fun f hf => ?_⟩) nofun
    exact s.daemon.world.wiped_flags hf
  | init capable =>
    rw [coherent_init_iff]
    constructor
    · rintro h _ heq
      cases heq
      exact h
    · exact fun h => h capable rfl

/-- **Negotiation is coherent exactly along safe messages.**  From any coherent state, such as
that of a daemon that has just started: after every message of the sequence the flags agree
with the options, if and only if every INIT in it is safe in the state it meets. -/
theorem negotiation_coherent_iff (cfg : Config) (pageSize : Nat) (s : History) (hs : s.Coherent)
    (events : List Event) (hevents : ∀ e ∈ events, e.IsSession) :
    Throughout (step cfg pageSize) Coherent s events ↔
      EveryStep (step cfg pageSize) (SafeStep cfg pageSize) s events :=
  throughout_iff_everyStep (fun s e he hs => coherent_step_iff s e he hs) hevents hs

end History

/-! ## 5. An INIT that fails -/

/-- An INIT of protocol 7.38. -/
def initMessage (flags : FsOptions) : List UInt8 :=
  leBytes 4 56 ++ leBytes 4 26 ++ leBytes 8 1 ++ List.replicate 24 0 ++
    leBytes 4 7 ++ leBytes 4 38 ++ leBytes 4 0 ++ leBytes 4 flags.toNat

/-- A message in one buffer, with 80 bytes for the reply. -/
def initEvent (flags : FsOptions) : Event :=
  .message ⟨fun a => (initMessage flags).getD a 0, ⟨[⟨0, 56⟩], 0, by decide⟩⟩
    ⟨[⟨100, 80⟩], 0, by decide⟩

/-- A share with mandatory POSIX ACLs. -/
def aclConfig : Config := { Config.default with posixAcl := .always }

def startedHistory : History := ⟨⟨0, freshWorld 10⟩, none⟩

theorem startedHistory_coherent : startedHistory.Coherent :=
  History.coherent_none.mpr ⟨rfl, fun _ _ => rfl⟩

/-- The opcode of a message that can be read. -/
def opcodeOf : Parse (MessageHeader × Input) → Option Opcode
  | .ok (h, _) => Opcode.tryFrom h.opcode
  | _ => none

theorem initEvent_isSession {flags : FsOptions}
    (h : opcodeOf (Input.readObj ⟨fun a => (initMessage flags).getD a 0, ⟨[⟨0, 56⟩], 0, by decide⟩⟩
      MessageHeader) = some .init) : (initEvent flags).IsSession := by
  intro header rest heq
  rw [heq] at h
  exact .inl h

/-- The sequence of an INIT that succeeds and a reset of the device. -/
theorem negotiation_coherent_iff_started :
    startedHistory.Coherent ∧ (∀ e ∈ [initEvent aclRequiredFlags, .reset], e.IsSession) ∧
      (Throughout (History.step aclConfig 4096) History.Coherent startedHistory
          [initEvent aclRequiredFlags, .reset] ↔
        EveryStep (History.step aclConfig 4096) (History.SafeStep aclConfig 4096) startedHistory
          [initEvent aclRequiredFlags, .reset]) := by
  have hevents : ∀ e ∈ [initEvent aclRequiredFlags, .reset], e.IsSession := by
    intro e he
    rcases List.mem_pair.mp he with rfl | rfl
    · exact initEvent_isSession (by decide +kernel)
    · trivial
  exact ⟨startedHistory_coherent, hevents, History.negotiation_coherent_iff aclConfig 4096
    startedHistory startedHistory_coherent _ hevents⟩

/-- **A refused INIT keeps the options of the session before.**  The first INIT has what ACLs
need, and the second one does not: the file system refuses it and has been wiped, but the
server goes on with the options of the first. -/
theorem refused_init_keeps_options :
    ∃ s : History, s = (startedHistory.step aclConfig 4096 (initEvent aclRequiredFlags)).step
        aclConfig 4096 (initEvent 0) ∧
      (initEvent aclRequiredFlags).IsSession ∧ (initEvent 0).IsSession ∧
      s.last = none ∧ s.daemon.options = aclRequiredFlags ∧
      s.daemon.world.fs.flags .posixAcl = false ∧ ¬ s.Coherent := by
  have hoptions : ((startedHistory.step aclConfig 4096 (initEvent aclRequiredFlags)).step aclConfig
      4096 (initEvent 0)).daemon.options = aclRequiredFlags := by decide +kernel
  have hflag : ((startedHistory.step aclConfig 4096 (initEvent aclRequiredFlags)).step aclConfig
      4096 (initEvent 0)).daemon.world.fs.flags .posixAcl = false := by decide +kernel
  refine ⟨_, rfl, initEvent_isSession (by decide +kernel), initEvent_isSession (by decide +kernel),
    by decide +kernel, hoptions, hflag, fun h => ?_⟩
  have hcontains := h.posixAcl
  rw [hoptions, hflag] at hcontains
  exact absurd hcontains (by decide)

end Server

end Virtiofsd
