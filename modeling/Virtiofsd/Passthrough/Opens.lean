/-
  # What a request opens

  Which call has opened the descriptor behind a handle, and what the handle table says about
  it: read off the log of OPEN, OPENDIR or CREATE, whoever answers their actions.
-/
import Virtiofsd.Lib.Log
import Virtiofsd.Passthrough.Ledger
import Virtiofsd.Passthrough.OpenFlags

namespace Virtiofsd

open Lib Prog List

variable {cfg : Config} {writeback : Bool} {flags : UInt32}

/-! ## 1. How a descriptor was opened -/

namespace HostCall

/-- Whether a file is opened through `/proc/self/fd`. -/
def throughProc : HostCall → Bool
  | .reopen _ _ => true
  | _ => false

/-- **The flags of the system call that opens a file.** -/
def openFlags : HostCall → UInt32
  | .openat _ _ flags _ => flags
  | .openRoot flags => flags
  | .reopen _ flags => followed true flags
  | .openByHandle _ flags => flags
  | _ => 0

/-- `InodeData::open_file`: an inode is opened through its descriptor or by its handle. -/
def OpensInode (flags : UInt32) (c : HostCall) : Prop :=
  (∃ fd, c = .reopen fd flags) ∨ ∃ h, c = .openByHandle h flags

/-- `do_create`: a file is made and opened by its name. -/
def OpensNew (flags : UInt32) (c : HostCall) : Prop :=
  ∃ dir name mode, c = .openat dir name flags mode

variable {c : HostCall}

theorem OpensInode.openFlags (h : c.OpensInode flags) :
    c.openFlags = followed c.throughProc flags := by
  rcases h with ⟨fd, rfl⟩ | ⟨fh, rfl⟩ <;> rfl

theorem OpensNew.openFlags (h : c.OpensNew flags) : c.openFlags = flags := by
  obtain ⟨dir, name, mode, rfl⟩ := h
  rfl

/-- Whether a descriptor comes from making a file. -/
def creates : HostCall → Bool
  | .openat .. => true
  | _ => false

theorem OpensInode.not_creates (h : c.OpensInode flags) :
    c.creates = false := by
  rcases h with ⟨fd, rfl⟩ | ⟨fh, rfl⟩ <;> rfl

theorem OpensNew.creates (h : c.OpensNew flags) : c.creates = true := by
  obtain ⟨dir, name, mode, rfl⟩ := h
  rfl

end HostCall

/-- The actions of a log that touch no references. -/
def neutralLog : List (Sigma Act.Ans) → List (Sigma NeutralAct.Ans)
  | [] => []
  | ⟨.neutral a, r⟩ :: log => ⟨a, r⟩ :: neutralLog log
  | ⟨.ref _, _⟩ :: log => neutralLog log

theorem neutralLog_append (log log' : List (Sigma Act.Ans)) :
    neutralLog (log ++ log') = neutralLog log ++ neutralLog log' := by
  induction log with
  | nil => rfl
  | cons x log ih =>
    rcases x with ⟨a | r, x⟩
    · exact congrArg (_ :: ·) ih
    · exact ih

theorem mem_neutralLog {a : NeutralAct} {r : a.Ans} {log : List (Sigma Act.Ans)}
    (h : (⟨.neutral a, r⟩ : Sigma Act.Ans) ∈ log) : ⟨a, r⟩ ∈ neutralLog log := by
  induction log with
  | nil => cases h
  | cons x log ih =>
    rcases mem_cons.mp h with rfl | hlog
    · exact mem_cons_self
    · rcases x with ⟨b | b, y⟩
      · exact mem_cons_of_mem _ (ih hlog)
      · exact ih hlog

variable {α : Type}

/-- The log of a program that touches no references, as part of a request. -/
theorem of_ends_liftM {p : NeutralM α} {a : α} {log : List (Sigma Act.Ans)}
    (h : (liftM p : FsM α).Ends (.ok a) log) :
    ∃ own, p.Ends (.ok a) own ∧ own ⊆ neutralLog log := by
  obtain ⟨own, hp, hown⟩ := of_ends_mapAct h
  refine ⟨own, hp, fun x hx => ?_⟩
  obtain ⟨s, hs, heq⟩ := hown x hx
  have hmem := mem_neutralLog hs
  rw [show s = x.2 from heq] at hmem
  exact hmem

/-- The descriptor an answer brings, with the call that has opened it. -/
def openedFd : (a : NeutralAct) → a.Ans → Option (Fd × HostCall)
  | .host (.openat dir name flags mode), .ok fd => some (fd, .openat dir name flags mode)
  | .host (.openRoot flags), .ok fd => some (fd, .openRoot flags)
  | .host (.reopen f flags), .ok fd => some (fd, .reopen f flags)
  | .host (.openByHandle h flags), .ok fd => some (fd, .openByHandle h flags)
  | _, _ => none

/-- The descriptors opened in a log. -/
def openedFiles (log : List (Sigma NeutralAct.Ans)) : List (Fd × HostCall) :=
  log.filterMap fun x => openedFd x.1 x.2

/-- The values the flag of the writeback cache is read with. -/
def writebackLoads (log : List (Sigma NeutralAct.Ans)) : List Bool :=
  log.filterMap fun
    | ⟨.query (.load .writeback), b⟩ => some b
    | _ => none

/-- **The answers of a log.**  `origin` says of every descriptor which call has opened it,
and the writeback cache is on or off as INIT has negotiated. -/
structure OpenedBy (origin : Fd → HostCall) (writeback : Bool) (log : List (Sigma NeutralAct.Ans)) :
    Prop where
  opened : ∀ x ∈ openedFiles log, origin x.1 = x.2
  loaded : ∀ b ∈ writebackLoads log, b = writeback

variable {origin : Fd → HostCall} {log log' : List (Sigma NeutralAct.Ans)} {fd : Fd}

theorem OpenedBy.mono (h : OpenedBy origin writeback log) (hsub : log' ⊆ log) :
    OpenedBy origin writeback log' where
  opened x hx := by
    obtain ⟨y, hy, hfd⟩ := mem_filterMap.mp hx
    exact h.opened x (mem_filterMap.mpr ⟨y, hsub hy, hfd⟩)
  loaded b hb := by
    obtain ⟨y, hy, hload⟩ := mem_filterMap.mp hb
    exact h.loaded b (mem_filterMap.mpr ⟨y, hsub hy, hload⟩)

/-- The origin of a descriptor that an answer in the log has brought. -/
theorem OpenedBy.origin_eq (h : OpenedBy origin writeback log) {a : NeutralAct} {r : a.Ans}
    {c : HostCall} (hmem : ⟨a, r⟩ ∈ log) (hfd : openedFd a r = some (fd, c)) : origin fd = c :=
  h.opened (fd, c) (mem_filterMap.mpr ⟨⟨a, r⟩, hmem, hfd⟩)

theorem OpenedBy.writeback_eq (h : OpenedBy origin writeback log) {b : Bool}
    (hmem : ⟨.query (.load .writeback), b⟩ ∈ log) : b = writeback :=
  h.loaded b (mem_filterMap.mpr ⟨⟨.query (.load .writeback), b⟩, hmem, rfl⟩)

theorem of_errno_ends {r : Except Errno α} {a : α} (h : (errno r).Ends (.ok a) log) :
    r = .ok a ∧ log = [] := by
  cases r with
  | ok a' =>
    obtain ⟨ho, rfl⟩ := h
    cases ho
    exact ⟨rfl, rfl⟩
  | error e =>
    obtain ⟨ho, -⟩ := h
    cases ho

/-- A call that has to succeed. -/
theorem of_call_ends {c : HostCall} {f : c.Ans → Except Errno α} {a : α}
    (h : ((host c).bind fun r => errno (f r)).Ends (.ok a) log) :
    ∃ r, f r = .ok a ∧ log = [⟨.host c, r⟩] := by
  obtain ⟨r, log₁, log₂, hhost, herr, rfl⟩ := of_ends_bind h
  obtain rfl := of_ends_perform hhost
  obtain ⟨hr, rfl⟩ := of_errno_ends herr
  exact ⟨r, hr, rfl⟩

theorem of_openFile_ends {d : InodeData} (h : (d.openFile flags).Ends (.ok fd) log)
    (ho : OpenedBy origin writeback log) : (origin fd).OpensInode flags := by
  unfold InodeData.openFile at h
  split at h
  · rename_i f _
    split at h
    · exact absurd h not_ends_err
    · obtain ⟨_, rfl, rfl⟩ := of_call_ends (c := .reopen f flags) (f := id) h
      exact .inl ⟨f, ho.origin_eq mem_cons_self rfl⟩
  · rename_i fh _
    split at h
    · exact absurd h not_ends_err
    · obtain ⟨_, rfl, rfl⟩ := of_call_ends (c := .openByHandle fh flags) (f := id) h
      exact .inr ⟨fh, ho.origin_eq mem_cons_self rfl⟩
  · exact absurd h not_ends_err

/-! ## 2. What a request enters into the handle table -/

/-- **An entry of the handle table**, for a request with the host's flags `flags`: of an
inode that was opened, or of a file that was made. -/
inductive Entered (cfg : Config) (origin : Fd → HostCall) (writeback : Bool) (flags : UInt32) :
    HandleData → Fd → Prop where
  | opened {inode : Inode} {fd : Fd} {mode : Nat}
      (h : (origin fd).OpensInode
        (PassthroughFs.openInodeFlags cfg writeback (doOpenFlags cfg flags))) :
      Entered cfg origin writeback flags ⟨inode, .ok fd, fileType mode,
        PassthroughFs.handleMigrationFlags (doOpenFlags cfg flags)⟩ fd
  | created {inode : Inode} {fd : Fd} {mode : UInt32}
      (h : (origin fd).OpensNew (createFlags flags)) :
      Entered cfg origin writeback flags ⟨inode, .ok fd, fileType mode.toNat,
        PassthroughFs.handleMigrationFlags flags⟩ fd

namespace PassthroughFs

theorem of_withoutFsetid_ends {drop : Bool} {body : NeutralM α} {a : α}
    (h : (withoutFsetid drop body).Ends (.ok a) log) :
    ∃ own, body.Ends (.ok a) own ∧ own ⊆ log := by
  unfold withoutFsetid at h
  split at h
  · exact ⟨log, h, Subset.refl _⟩
  · obtain ⟨_, log₁, log₂, -, hdrop, rfl⟩ := of_ends_bind h
    obtain ⟨_, log₃, log₄, -, hscope, rfl⟩ := of_ends_bind hdrop
    obtain ⟨own, log₅, hbody, rfl⟩ := of_ends_ensuring hscope
    refine ⟨own, hbody, ?_⟩
    intro x hx
    simp [hx]

theorem of_openInode_ends {d : InodeData} (h : (openInode cfg d flags).Ends (.ok fd) log)
    (ho : OpenedBy origin writeback log) :
    (origin fd).OpensInode (openInodeFlags cfg writeback flags) := by
  obtain ⟨b, log₁, log₂, hload, hopen, rfl⟩ := of_ends_bind h
  obtain rfl := of_ends_perform hload
  obtain rfl := ho.writeback_eq mem_cons_self
  exact of_openFile_ends hopen (ho.mono (subset_append_right _ _))

theorem of_newHandle_ends {inode : Inode} {type : Nat} {handle : Handle}
    (h : (newHandle inode fd type flags).Ends (.ok handle) log) :
    ⟨.query (.insertHandle handle ⟨inode, .ok fd, type, handleMigrationFlags flags⟩), ()⟩ ∈
      log := by
  obtain ⟨handle', log₁, log₂, -, hfd, rfl⟩ := of_ends_bind h
  obtain ⟨_, log₃, log₄, -, hrest, rfl⟩ := of_ends_bind hfd
  obtain ⟨_, hinsert, rfl⟩ := of_ends_map hrest
  simp [of_ends_perform hinsert]

theorem of_getInode_ends {inode : Inode} {r : InodeRef}
    (h : (getInode inode).Ends (.ok r) log) : ⟨.query (.get inode), some r⟩ ∈ log := by
  obtain ⟨found, log₁, log₂, hget, hret, rfl⟩ := of_ends_bind h
  obtain rfl := of_ends_perform hget
  cases found with
  | none => exact absurd hret not_ends_err
  | some r' =>
    obtain ⟨ho, rfl⟩ := of_ends_ret hret
    cases ho
    exact mem_cons_self

/-- **`do_open`**, for the inode it has found. -/
theorem of_doOpen_ends {inode : Inode} {killPriv : Bool} {handle : Option Handle}
    {opts : OpenOptions} (h : (doOpen cfg inode killPriv flags).Ends (.ok (handle, opts)) log)
    (ho : OpenedBy origin writeback log) :
    ∃ r handle' fd, handle = some handle' ∧ ⟨.query (.get inode), some r⟩ ∈ log ∧
      ⟨.query (.insertHandle handle' ⟨inode, .ok fd, fileType r.data.mode,
        handleMigrationFlags (doOpenFlags cfg flags)⟩), ()⟩ ∈ log ∧
      (origin fd).OpensInode (openInodeFlags cfg writeback (doOpenFlags cfg flags)) := by
  unfold doOpen at h
  dsimp only at h
  rw [show (if cfg.cleanNoatime = true then flags &&& ~~~O_APPEND &&& ~~~O_NOATIME else
    flags &&& ~~~O_APPEND) = doOpenFlags cfg flags from rfl] at h
  obtain ⟨r, log₁, log₂, hget, hopen, rfl⟩ := of_ends_bind h
  obtain ⟨fd, log₃, log₄, hfd, htrunc, rfl⟩ := of_ends_bind hopen
  -- whether `O_TRUNC` clears capabilities or not, the handle follows
  have hnew : ∃ own, (bind (newHandle inode fd (fileType r.data.mode) (doOpenFlags cfg flags))
      fun handle => .ret (some handle, openOptions cfg (doOpenFlags cfg flags))).Ends
        (.ok (handle, opts)) own ∧ own ⊆ log₄ := by
    split at htrunc
    · obtain ⟨_, log₅, log₆, -, hrest, rfl⟩ := of_ends_bind htrunc
      exact ⟨log₆, hrest, subset_append_right _ _⟩
    · exact ⟨log₄, htrunc, Subset.refl _⟩
  obtain ⟨own, htail, hsub⟩ := hnew
  obtain ⟨handle', hnew, ⟨⟩⟩ := of_ends_map htail
  obtain ⟨body, hbody, hbodysub⟩ := of_withoutFsetid_ends hfd
  refine ⟨r, handle', fd, rfl, ?_, ?_, ?_⟩
  · exact mem_append_left _ (of_getInode_ends hget)
  · have hinsert := hsub (of_newHandle_ends hnew)
    exact mem_append_right _ (mem_append_right _ hinsert)
  · refine of_openInode_ends hbody (ho.mono fun x hx => ?_)
    exact mem_append_right _ (mem_append_left _ (hbodysub hx))

theorem of_withCredentials_ends {ctx : Context} {extensions : Extensions} {umask : Option UInt32}
    {body : NeutralM α} {a : α}
    (h : (withCredentials cfg ctx extensions umask body).Ends (.ok a) log) :
    ∃ own, body.Ends (.ok a) own ∧ own ⊆ log := by
  obtain ⟨dropGuard, log₁, log₂, -, hacl, rfl⟩ := of_ends_bind h
  obtain ⟨posixAcl, log₃, log₄, -, hscope, rfl⟩ := of_ends_bind hacl
  obtain ⟨log₅, log₆, hmask, rfl⟩ := of_ends_ensuring hscope
  -- with or without the guest's umask
  have hbody : ∃ own, body.Ends (.ok a) own ∧ own ⊆ log₅ := by
    split at hmask
    · obtain ⟨_, log₇, log₈, -, hinner, rfl⟩ := of_ends_bind hmask
      obtain ⟨own, log₉, hbody, rfl⟩ := of_ends_ensuring hinner
      refine ⟨own, hbody, ?_⟩
      intro x hx
      simp [hx]
    · exact ⟨log₅, hmask, Subset.refl _⟩
  obtain ⟨own, hbody, hsub⟩ := hbody
  refine ⟨own, hbody, ?_⟩
  intro x hx
  simp [hsub hx]

theorem of_openRelativeTo_ends {dir : Fd} {name : Name} {mode : Option UInt32}
    (h : (openRelativeTo dir name flags mode).Ends (.ok fd) log)
    (ho : OpenedBy origin writeback log) :
    (origin fd).OpensNew (O_NOFOLLOW ||| O_CLOEXEC ||| flags) := by
  obtain ⟨_, rfl, rfl⟩ := of_call_ends (c := .openat dir name _ mode) (f := id) h
  exact ⟨dir, name, mode, ho.origin_eq mem_cons_self rfl⟩

/-- **`do_create`**: the security context is set on the descriptor, which stays the same. -/
theorem of_doCreate_ends {ctx : Context} {parentFile : Fd} {name : Name} {mode umask : UInt32}
    {extensions : Extensions}
    (h : (doCreate cfg ctx parentFile name mode (flags &&& ~~~O_APPEND) umask extensions).Ends
      (.ok fd) log) (ho : OpenedBy origin writeback log) :
    (origin fd).OpensNew (createFlags flags) := by
  obtain ⟨fd', log₁, log₂, hopen, hlabel, rfl⟩ := of_ends_bind h
  obtain ⟨own, hopen, hsub⟩ := of_withCredentials_ends hopen
  have horigin := of_openRelativeTo_ends hopen
    (ho.mono fun x hx => mem_append_left _ (hsub hx))
  have hfd : fd' = fd := by
    split at hlabel
    · obtain ⟨hout, -⟩ := of_ends_ret hlabel
      cases hout
      rfl
    · obtain ⟨xattrName, log₃, log₄, -, hset, rfl⟩ := of_ends_bind hlabel
      obtain ⟨ok, log₅, log₆, -, hdone, rfl⟩ := of_ends_bind hset
      cases ok with
      | true =>
        obtain ⟨hout, -⟩ := of_ends_ret hdone
        cases hout
        rfl
      | false =>
        obtain ⟨_, log₇, log₈, -, hfail, rfl⟩ := of_ends_bind hdone
        obtain ⟨_, log₉, log₁₀, -, herr, rfl⟩ := of_ends_bind hfail
        exact absurd herr not_ends_err
  rw [hfd] at horigin
  exact horigin

section Create

variable {ctx : Context} {parent : Inode} {name : Name} {mode umask : UInt32} {killPriv : Bool}
  {extensions : Extensions} {entry : Entry} {flog : List (Sigma Act.Ans)}

theorem of_createEntry_ends
    (h : (createEntry cfg ctx parent name mode flags umask extensions).Ends
      (.ok (entry, some fd)) flog) (ho : OpenedBy origin writeback (neutralLog flog)) :
    (origin fd).OpensNew (createFlags (guestOpenFlags cfg flags)) := by
  obtain ⟨data, log₁, log₂, -, hfile, rfl⟩ := of_ends_bind h
  obtain ⟨parentFile, log₃, log₄, -, hcreate, rfl⟩ := of_ends_bind hfile
  obtain ⟨r, log₅, log₆, hattempt, hlookup, rfl⟩ := of_ends_bind hcreate
  obtain ⟨own, hown, hsub⟩ := of_ends_liftM hattempt
  have hopened : OpenedBy origin writeback own := ho.mono fun x hx => by
    rw [neutralLog_append, neutralLog_append, neutralLog_append]
    exact mem_append_right _ (mem_append_right _ (mem_append_left _ (hsub hx)))
  rcases of_ends_attempt hown with ⟨fd', rfl, hmade⟩ | ⟨e, rfl, -⟩
  · obtain ⟨entry', log₇, log₈, -, hret, rfl⟩ := of_ends_bind hlookup
    obtain ⟨hout, rfl⟩ := of_ends_ret hret
    cases hout
    exact of_doCreate_ends hmade hopened
  · dsimp only at hlookup
    split at hlookup
    · obtain ⟨entry', log₇, log₈, -, hret, rfl⟩ := of_ends_bind hlookup
      obtain ⟨hout, rfl⟩ := of_ends_ret hret
      cases hout
    · exact absurd hlookup not_ends_err

/-- **`create`**: either the file was made, or it was there and is opened like any other. -/
theorem of_create_ends {handle : Option Handle} {opts : OpenOptions}
    (h : (create cfg ctx parent name mode killPriv flags umask extensions).Ends
      (.ok (entry, handle, opts)) flog) (ho : OpenedBy origin writeback (neutralLog flog)) :
    ∃ handle' fd, handle = some handle' ∧
      ((⟨.query (.insertHandle handle' ⟨entry.inode, .ok fd, fileType mode.toNat,
          handleMigrationFlags (guestOpenFlags cfg flags)⟩), ()⟩ ∈ neutralLog flog ∧
        (origin fd).OpensNew (createFlags (guestOpenFlags cfg flags))) ∨
      ∃ r : InodeRef, ⟨.query (.insertHandle handle' ⟨entry.inode, .ok fd, fileType r.data.mode,
          handleMigrationFlags (doOpenFlags cfg (guestOpenFlags cfg flags))⟩), ()⟩ ∈
            neutralLog flog ∧
        (origin fd).OpensInode (openInodeFlags cfg writeback
          (doOpenFlags cfg (guestOpenFlags cfg flags)))) := by
  obtain ⟨⟨entry', made⟩, log₁, log₂, hentry, hrest, rfl⟩ := of_ends_bind h
  obtain ⟨handle', hhandle, ⟨⟩⟩ := of_ends_map hrest
  obtain ⟨own, hown, hsub⟩ := of_ends_liftM hhandle
  rw [neutralLog_append] at ho ⊢
  have hmem : ∀ x ∈ own, x ∈ neutralLog log₁ ++ neutralLog log₂ := fun x hx =>
    mem_append_right _ (hsub hx)
  cases made with
  | some fd =>
    have hmade := of_createEntry_ends hentry (ho.mono (subset_append_left _ _))
    exact ⟨handle', fd, rfl, .inl ⟨hmem _ (of_newHandle_ends hown), hmade⟩⟩
  | none =>
    obtain ⟨⟨found, opts⟩, log₅, log₆, hopen, hsome, rfl⟩ := of_ends_bind hown
    obtain ⟨r, handle'', fd, rfl, -, hinsert, horigin⟩ :=
      of_doOpen_ends hopen (ho.mono fun x hx => hmem x (mem_append_left _ hx))
    obtain ⟨hout, rfl⟩ := of_ends_ret hsome
    cases hout
    exact ⟨handle', fd, rfl, .inr ⟨r, hmem _ (mem_append_left _ hinsert), horigin⟩⟩

end Create

end PassthroughFs

/-- The host's flags of a request that opens a file. -/
def Request.hostFlags (cfg : Config) : Request → Option UInt32
  | .file (.open _ _ flags) => some (PassthroughFs.guestOpenFlags cfg flags)
  | .file (.opendir _ flags) => some (PassthroughFs.guestOpenFlags cfg flags ||| O_DIRECTORY)
  | .create _ _ _ _ _ flags _ _ => some (PassthroughFs.guestOpenFlags cfg flags)
  | _ => none

/-- The handle a reply gives to the guest. -/
def Reply.handle : Reply → Option Handle
  | .file (.opened handle _) => handle
  | .created _ handle _ => handle
  | _ => none

theorem of_ofFile_ends {p : NeutralM FileReply} {reply : Reply} {flog : List (Sigma Act.Ans)}
    (h : (Reply.ofFile p).Ends (.ok reply) flog) :
    ∃ r own, reply = .file r ∧ p.Ends (.ok r) own ∧ own ⊆ neutralLog flog := by
  obtain ⟨r, hp, rfl⟩ := of_ends_map h
  obtain ⟨own, hown, hsub⟩ := of_ends_liftM hp
  exact ⟨r, own, rfl, hown, hsub⟩

/-- The entry of a file that was opened, with the handle as it is returned. -/
theorem entered_of_doOpen_ends {inode : Inode} {killPriv : Bool} {r : FileReply}
    {handle : Handle}
    (h : (bind (PassthroughFs.doOpen cfg inode killPriv flags) fun x =>
      .ret (.opened x.1 x.2)).Ends (.ok r) log)
    (hreply : (Reply.file r).handle = some handle) (ho : OpenedBy origin writeback log) :
    ∃ data fd, ⟨.query (.insertHandle handle data), ()⟩ ∈ log ∧
      Entered cfg origin writeback flags data fd := by
  obtain ⟨⟨found, opts⟩, hopen, rfl⟩ := of_ends_map h
  obtain ⟨r, handle', fd, rfl, -, hinsert, horigin⟩ := PassthroughFs.of_doOpen_ends hopen ho
  obtain rfl : handle' = handle := Option.some.inj hreply
  exact ⟨_, fd, hinsert, .opened horigin⟩

/-- **OPEN, OPENDIR and both ways of CREATE**: what a request enters under the handle it
returns. -/
theorem entered_of_serve_ends {request : Request} {reply : Reply} {handle : Handle}
    {flog : List (Sigma Act.Ans)} (hreq : request.hostFlags cfg = some flags)
    (h : (PassthroughFs.serve cfg request).Ends (.ok reply) flog)
    (hreply : reply.handle = some handle) (ho : OpenedBy origin writeback (neutralLog flog)) :
    ∃ data fd, ⟨.query (.insertHandle handle data), ()⟩ ∈ neutralLog flog ∧
      Entered cfg origin writeback flags data fd := by
  unfold Request.hostFlags at hreq
  split at hreq
  · cases hreq
    obtain ⟨r, own, rfl, hown, hsub⟩ := of_ofFile_ends h
    obtain ⟨data, fd, hinsert, hentered⟩ := entered_of_doOpen_ends hown hreply (ho.mono hsub)
    exact ⟨data, fd, hsub hinsert, hentered⟩
  · cases hreq
    obtain ⟨r, own, rfl, hown, hsub⟩ := of_ofFile_ends h
    obtain ⟨data, fd, hinsert, hentered⟩ := entered_of_doOpen_ends hown hreply (ho.mono hsub)
    exact ⟨data, fd, hsub hinsert, hentered⟩
  · cases hreq
    obtain ⟨⟨entry, found, opts⟩, hcreate, rfl⟩ := of_ends_map h
    obtain ⟨handle', fd, rfl, hentered⟩ := PassthroughFs.of_create_ends hcreate ho
    obtain rfl : handle' = handle := Option.some.inj hreply
    rcases hentered with ⟨hinsert, horigin⟩ | ⟨r, hinsert, horigin⟩
    · exact ⟨_, fd, hinsert, .created horigin⟩
    · exact ⟨_, fd, hinsert, .opened horigin⟩
  · cases hreq

/-! ## 3. CREATE and OPEN -/

/-- **Two files opened alike**, apart from the flags in `mask`: the flags of their
descriptors, what is recorded of them, and their types. -/
def OpenedAlike (mask : UInt32) (c c' : HostCall) (data data' : HandleData) : Prop :=
  c.openFlags &&& ~~~mask = c'.openFlags &&& ~~~mask ∧
    data.migrationFlags = data'.migrationFlags ∧ data.fileType = data'.fileType

/-- When CREATE opens a new file as OPEN would open it. -/
def CreatesAlike (cfg : Config) (writeback : Bool) (flags mode : UInt32) : Prop :=
  ModeKept cfg writeback flags ∧ (cfg.cleanNoatime = false ∨ flags &&& O_NOATIME = 0) ∧
    flags &&& O_APPEND = 0 ∧ fileType mode.toNat = S_IFREG

/-- The inodes a log has found under a FUSE ID. -/
def inodesFound (inode : Inode) (log : List (Sigma NeutralAct.Ans)) : List InodeRef :=
  log.filterMap fun
    | ⟨.query (.get i), r⟩ => if i = inode then r else none
    | _ => none

theorem mem_inodesFound {inode : Inode} {r : InodeRef}
    (h : ⟨.query (.get inode), some r⟩ ∈ log) : r ∈ inodesFound inode log :=
  mem_filterMap.mpr ⟨⟨.query (.get inode), some r⟩, h, if_pos rfl⟩

/-- A CREATE that returns a handle, and an OPEN of the file with the same flags, both on a
daemon whose writeback cache is on or off as `writeback` says.  The file is a regular one. -/
structure CreateThenOpen (cfg : Config) (writeback : Bool) (flags mode : UInt32) where
  ctx : Context
  parent : Inode
  name : Name
  killPriv : Bool
  umask : UInt32
  extensions : Extensions
  entry : Entry
  handle : Handle
  opts : OpenOptions
  createLog : List (Sigma Act.Ans)
  creates : (PassthroughFs.create cfg ctx parent name mode killPriv flags umask extensions).Ends
    (.ok (entry, some handle, opts)) createLog
  origin : Fd → HostCall
  openedBy : OpenedBy origin writeback (neutralLog createLog)
  killPriv' : Bool
  handle' : Handle
  opts' : OpenOptions
  openLog : List (Sigma NeutralAct.Ans)
  opens : (PassthroughFs.doOpen cfg entry.inode killPriv'
    (PassthroughFs.guestOpenFlags cfg flags)).Ends (.ok (some handle', opts')) openLog
  origin' : Fd → HostCall
  openedBy' : OpenedBy origin' writeback openLog
  regular : ∀ r ∈ inodesFound entry.inode openLog, fileType r.data.mode = S_IFREG

/-- What the two enter into the handle table. -/
structure CreateThenOpen.Enter {mode : UInt32} (x : CreateThenOpen cfg writeback flags mode)
    (data data' : HandleData) (fd fd' : Fd) : Prop where
  created : ⟨.query (.insertHandle x.handle data), ()⟩ ∈ neutralLog x.createLog
  file : data.file = .ok fd
  opened : ⟨.query (.insertHandle x.handle' data'), ()⟩ ∈ x.openLog
  file' : data'.file = .ok fd'

/-- **CREATE opens a new file as OPEN would**, if and only if the flags are ones that neither
`do_open` nor `open_inode` would have changed and the guest has said that it makes a regular
file.  The word of flags as a whole is the same only if OPEN, too, has `O_NOFOLLOW`. -/
theorem create_opens_like_open_iff {mode : UInt32} (x : CreateThenOpen cfg writeback flags mode) :
    ∃ data data' fd fd', x.Enter data data' fd fd' ∧
      ((x.origin fd).creates = true →
        (OpenedAlike (creationFlags ||| O_NOFOLLOW) (x.origin fd) (x.origin' fd') data data' ↔
          CreatesAlike cfg writeback (PassthroughFs.guestOpenFlags cfg flags) mode) ∧
        (OpenedAlike creationFlags (x.origin fd) (x.origin' fd') data data' ↔
          CreatesAlike cfg writeback (PassthroughFs.guestOpenFlags cfg flags) mode ∧
            PassthroughFs.guestOpenFlags cfg flags &&& O_NOFOLLOW ≠ 0 ∧
            (x.origin' fd').throughProc = false)) := by
  obtain ⟨_, fd, hsome, hentered⟩ := PassthroughFs.of_create_ends x.creates x.openedBy
  cases hsome
  obtain ⟨r, _, fd', hsome', hget, hinsert', horigin'⟩ :=
    PassthroughFs.of_doOpen_ends x.opens x.openedBy'
  cases hsome'
  have htype := x.regular r (mem_inodesFound hget)
  rcases hentered with ⟨hinsert, horigin⟩ | ⟨r', hinsert, horigin⟩
  · refine ⟨_, _, fd, fd', ⟨hinsert, rfl, hinsert', rfl⟩, fun _ => ?_⟩
    unfold OpenedAlike CreatesAlike
    dsimp only
    rw [horigin.openFlags, horigin'.openFlags, created_like_opened_iff, created_eq_opened_iff,
      recorded_eq_iff, htype]
    constructor
    · constructor
      · rintro ⟨⟨hmode, hnoatime⟩, ⟨happend, -⟩, hfile⟩
        exact ⟨hmode, hnoatime, happend, hfile⟩
      · rintro ⟨hmode, hnoatime, happend, hfile⟩
        exact ⟨⟨hmode, hnoatime⟩, ⟨happend, hnoatime⟩, hfile⟩
    · constructor
      · rintro ⟨⟨hmode, hnoatime, hfollow⟩, ⟨happend, -⟩, hfile⟩
        exact ⟨⟨hmode, hnoatime, happend, hfile⟩, hfollow⟩
      · rintro ⟨⟨hmode, hnoatime, happend, hfile⟩, hfollow⟩
        exact ⟨⟨hmode, hnoatime, hfollow⟩, ⟨happend, hnoatime⟩, hfile⟩
  · refine ⟨_, _, fd, fd', ⟨hinsert, rfl, hinsert', rfl⟩, fun hnew => ?_⟩
    rw [horigin.not_creates] at hnew
    cases hnew

/-! ## 4. A file created for writing, with a writeback cache -/

/-- A host that numbers the files it opens. -/
def numberedHost (k : Nat) : Host
  | .openat .. => .ok (k + 10)
  | .reopen .. => .ok (k + 10)
  | c => obligingHost k c

def writebackConfig : Config := { Config.default with writeback := true }

/-- The daemon after INIT, with a guest that has a writeback cache. -/
def writebackWorld : World :=
  ((PassthroughFs.init writebackConfig FsOptions.WRITEBACK_CACHE).run World.performSession
    ⟨.initial 8 false, numberedHost, 0⟩).2

/-- CREATE of the file `a` with `O_WRONLY`. -/
def createWriteOnly : FsM (Entry × Option Handle × OpenOptions) :=
  PassthroughFs.create writebackConfig ⟨0, 0, 0⟩ ROOT_ID [0x61] 0o100644 false O_WRONLY 0 ⟨none, []⟩

/-- OPEN of the file it has made. -/
def openWriteOnly : NeutralM (Option Handle × OpenOptions) :=
  PassthroughFs.doOpen writebackConfig 2 false O_WRONLY

def createdWorld : World := (createWriteOnly.run World.perform writebackWorld).2

def createWriteOnlyLog : List (Sigma Act.Ans) := createWriteOnly.trace World.perform writebackWorld

def openWriteOnlyLog : List (Sigma NeutralAct.Ans) :=
  openWriteOnly.trace (fun a => World.perform (.neutral a)) createdWorld

/-- The calls that have opened the files of both. -/
def writeOnlyOrigin : Fd → HostCall
  | 14 => .openat 3 [0x61] (createFlags O_WRONLY) (some 0o100644)
  | 15 => .openat 3 [0x61] (O_NOFOLLOW ||| O_CLOEXEC ||| O_PATH) none
  | _ => .reopen 15 (O_RDWR ||| O_CLOEXEC)

theorem createWriteOnlyLog_openedBy :
    OpenedBy writeOnlyOrigin true (neutralLog createWriteOnlyLog) where
  opened := by
    have h : openedFiles (neutralLog createWriteOnlyLog) =
        [(14, writeOnlyOrigin 14), (15, writeOnlyOrigin 15)] := rfl
    rw [h]
    simp
  loaded := by decide +kernel

theorem openWriteOnlyLog_openedBy : OpenedBy writeOnlyOrigin true openWriteOnlyLog where
  opened := by
    intro x hx
    obtain rfl : x = (17, writeOnlyOrigin 17) := mem_singleton.mp hx
    rfl
  loaded := by decide +kernel

/-- Both succeed, one after the other. -/
def createdWriteOnly : CreateThenOpen writebackConfig true O_WRONLY 0o100644 where
  ctx := ⟨0, 0, 0⟩
  parent := ROOT_ID
  name := [0x61]
  killPriv := false
  umask := 0
  extensions := ⟨none, []⟩
  entry := ⟨2, 0, ⟨2, 0, 0, 0, 0, 0, 0, 0, 0, 0o100644, 1, 0, 0, 0, 4096, 0⟩, 5, 5⟩
  handle := 0
  opts := 0
  createLog := createWriteOnlyLog
  creates := Prog.run_ends World.perform createWriteOnly writebackWorld
  origin := writeOnlyOrigin
  openedBy := createWriteOnlyLog_openedBy
  killPriv' := false
  handle' := 1
  opts' := 0
  openLog := openWriteOnlyLog
  opens := Prog.run_ends _ openWriteOnly createdWorld
  origin' := writeOnlyOrigin
  openedBy' := openWriteOnlyLog_openedBy
  regular := by decide +kernel

/-- **With a writeback cache, CREATE opens a file for writing only** that OPEN would open for
reading too. -/
theorem create_ignores_writeback :
    ∃ data data' fd fd', createdWriteOnly.Enter data data' fd fd' ∧
      (createdWriteOnly.origin fd).creates = true ∧
      ¬ OpenedAlike (creationFlags ||| O_NOFOLLOW) (createdWriteOnly.origin fd)
        (createdWriteOnly.origin' fd') data data' := by
  -- the handles are the last actions of both
  have hcreated : (neutralLog createWriteOnlyLog)[16]? =
      some ⟨.query (.insertHandle 0 ⟨2, .ok 14, S_IFREG, O_WRONLY⟩), ()⟩ := rfl
  have hopened : openWriteOnlyLog[5]? =
      some ⟨.query (.insertHandle 1 ⟨2, .ok 17, S_IFREG, O_WRONLY⟩), ()⟩ := rfl
  refine ⟨⟨2, .ok 14, S_IFREG, O_WRONLY⟩, ⟨2, .ok 17, S_IFREG, O_WRONLY⟩, 14, 17,
    ⟨?_, rfl, ?_, rfl⟩, rfl, ?_⟩
  · exact List.mem_of_getElem? hcreated
  · exact List.mem_of_getElem? hopened
  · rintro ⟨hflags, -⟩
    revert hflags
    decide

end Virtiofsd
