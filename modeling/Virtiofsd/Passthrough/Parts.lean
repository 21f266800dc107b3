/-
  # Requests and what they are made of

  What has to be known of the parts of a request for a compositional property to hold of the
  request: `FileParts` for the requests on files and attributes, `RequestParts` for all of
  them.  The parts are the calls into the host, the plain accesses to the shared state, and
  the few functions that do more than such properties say in general: they can panic, draw
  ids, or touch migration infos.

  A property may be one of calls that only LOOK at files.  So the parts name the class of the
  calls, and what needs no more than looking is walked through for every class.
-/
import Virtiofsd.Lib.Compositional
import Virtiofsd.Passthrough.OpenFlags
import Virtiofsd.ZeroCopy

namespace Virtiofsd

open Lib Prog

variable {α β : Type} {cfg : Config}

/-! ## 1. The parts -/

/-- Accesses to the shared state that any request may make. -/
def Query.Plain : Query → Prop
  | .get _ => True
  | .load _ => True
  | .allocateFd => True
  | .releaseFd => True
  | .findHandle _ _ => True
  | .removeHandle _ _ => True
  | .hasDentryIndex => True
  | _ => False

/-- Calls that leave the memory of the guest alone. -/
def HostCall.OffGuest : HostCall → Prop
  | .preadv .. => False
  | .pwritev .. => False
  | _ => True

/-- The flags of the opens the daemon makes for itself. -/
def quietFlags : UInt32 := O_PATH ||| O_NOFOLLOW ||| O_CLOEXEC ||| O_NONBLOCK

@[simp] theorem bit_quietFlags (i : Fin 32) :
    bit quietFlags i = decide (i = 11 ∨ i = 17 ∨ i = 19 ∨ i = 21) := by
  revert i; decide

def QuietFlags (flags : UInt32) : Prop := flags &&& ~~~quietFlags = 0

def LibcCall.Quiet : LibcCall → Prop
  | .fsync _ => True
  | .fdatasync _ => True
  | .syncfs _ => True
  | .close _ => True
  | _ => False

/-- Calls that look at files, or open them to look at them. -/
def HostCall.Looks : HostCall → Prop
  | .openat _ _ flags _ => QuietFlags flags
  | .openRoot flags => QuietFlags flags
  | .reopen _ flags => QuietFlags flags
  | .openByHandle _ flags => QuietFlags flags
  | .preadv .. => False
  | .pwritev .. => False
  | .fchmodPath .. => False
  | .copyFileRange .. => False
  | .libc c => c.Quiet
  | _ => True

/-- **A class of calls into the host**, with all that look at files. -/
structure CallClass where
  Has : HostCall → Prop
  looks : ∀ c : HostCall, c.Looks → Has c

def CallClass.looking : CallClass := ⟨HostCall.Looks, fun _ h => h⟩

def CallClass.offGuest : CallClass where
  Has := HostCall.OffGuest
  looks c h := by cases c <;> first | exact trivial | exact h

/-- A file may be opened with these flags. -/
structure CallClass.Opens (C : CallClass) (flags : UInt32) : Prop where
  reopen : ∀ fd, C.Has (.reopen fd flags)
  openByHandle : ∀ fh, C.Has (.openByHandle fh flags)

variable {flags : UInt32}

theorem CallClass.opens_quiet (C : CallClass) (h : QuietFlags flags) :
    C.Opens flags :=
  ⟨fun _ => C.looks _ h, fun _ => C.looks _ h⟩

theorem CallClass.opens_offGuest (flags : UInt32) : offGuest.Opens flags :=
  ⟨fun _ => trivial, fun _ => trivial⟩

/-- What programs are made of that only make calls into the host. -/
structure HostParts (C : CallClass) (W : ∀ {α : Type}, NeutralM α → Prop) : Prop
    extends Compositional W where
  host : ∀ c, C.Has c → W (host c)

/-- Accesses to the number of open descriptors. -/
def Query.OnFds : Query → Prop
  | .allocateFd => True
  | .releaseFd => True
  | _ => False

/-- What is needed to open inodes and to keep them open. -/
structure InodeParts (cfg : Config) (C : CallClass) (W : ∀ {α : Type}, NeutralM α → Prop) : Prop
    extends HostParts C W where
  onFds : ∀ q, q.OnFds → W (query q)
  getFileHandleOpt : ∀ fd st, W (getFileHandleOpt cfg fd st)
  makeFileHandleOpenable : ∀ fh, W (makeFileHandleOpenable cfg fh)

/-- **What the requests on files and attributes are made of.** -/
structure FileParts (cfg : Config) (C : CallClass) (W : ∀ {α : Type}, NeutralM α → Prop) : Prop
    extends InodeParts cfg C W where
  query : ∀ q, q.Plain → W (query q)
  withoutFsetid : ∀ {α : Type} {drop : Bool} {body : NeutralM α}, W body →
    W (withoutFsetid drop body)
  inProcSelfFd : ∀ {α : Type} {body : NeutralM α}, W body → W (inProcSelfFd body)
  mapClientXattrname : ∀ name, W (PassthroughFs.mapClientXattrname cfg name)
  mapServerXattrlist : ∀ names, W (PassthroughFs.mapServerXattrlist cfg names)
  newHandle : ∀ inode fd type flags, W (PassthroughFs.newHandle inode fd type flags)

/-- Accesses to references that any request may make. -/
def RefAct.Plain : RefAct → Prop
  | .dropRef _ => True
  | .leak _ => True
  | _ => False

/-- What is needed to find an inode by a name. -/
structure ClaimParts (cfg : Config) (C : CallClass) (W : ∀ {α : Type}, FsM α → Prop) : Prop
    extends Compositional W where
  files : FileParts cfg C fun {α : Type} (p : NeutralM α) => W (liftM p : FsM α)
  refAct : ∀ r, r.Plain → W (refAct r)
  claimInode : ∀ handle ids, W (claimInode handle ids)
  insertInode : ∀ p name fd st handle, W (insertInode cfg p name fd st handle)

/-- What lookups are made of. -/
structure LookupParts (cfg : Config) (C : CallClass) (W : ∀ {α : Type}, FsM α → Prop) : Prop
    extends ClaimParts cfg C W where
  dentry : ∀ op, W (liftM (query (.dentry op)) : FsM Unit)

/-- **What all requests are made of.** -/
structure RequestParts (cfg : Config) (W : ∀ {α : Type}, FsM α → Prop) : Prop
    extends LookupParts cfg .offGuest W where
  updateInodeMigrationInfo : ∀ parent name, W (updateInodeMigrationInfo cfg parent name)
  afterInvalidatingPath : ∀ r, W (afterInvalidatingPath cfg r)
  forget : ∀ inode count, W (PassthroughFs.forget inode count)
  batchForget : ∀ requests, W (PassthroughFs.batchForget requests)

/-- The requests that open a file. -/
def FileRequest.opens : FileRequest → Bool
  | .open .. => true
  | .opendir .. => true
  | _ => false

def Request.opens : Request → Bool
  | .file request => request.opens
  | .create .. => true
  | _ => false

/-! ## 2. Files and handles of an inode -/

namespace HostParts

variable {C : CallClass} {W : ∀ {α : Type}, NeutralM α → Prop} (h : HostParts C W)

include h

theorem look (c : HostCall) (hc : c.Looks) : W (Virtiofsd.host c) := h.host c (C.looks c hc)

theorem errno (r : Except Errno α) : W (errno r) := by
  cases r with
  | ok a => exact h.ret a
  | error e => exact h.err _

theorem lastOsError : W lastOsError := h.map (h.look .lastOsError trivial)

/-- The end of a call that has failed. -/
theorem failed : W (bind Virtiofsd.lastOsError fun e => (.err e : NeutralM α)) :=
  h.bind h.lastOsError fun _ => h.err _

theorem libcOk (c : LibcCall) (hc : C.Has (.libc c)) : W (libcOk c) := by
  refine h.bind (h.host (.libc c) hc) fun ok => ?_
  cases ok with
  | true => exact h.ret ()
  | false => exact h.failed

/-- A call whose result does not matter. -/
theorem ignore (c : HostCall) (hc : C.Has c) : W (discard (Virtiofsd.host c)) :=
  h.map (h.host c hc)

/-- A failure on a condition. -/
theorem guard {c : Prop} [Decidable c] {e : IoError} {p : NeutralM α} (hp : W p) :
    W (if c then .err e else p) := by
  split
  · exact h.err _
  · exact hp

variable (d : InodeData)

theorem getFile : W d.getFile := by
  unfold InodeData.getFile
  split
  · exact h.ret _
  · exact h.bind (h.look (.openByHandle _ O_PATH) rfl) fun r => h.errno r
  · exact h.err _

theorem openFile (hflags : C.Opens flags) :
    W (d.openFile flags) := by
  unfold InodeData.openFile
  split
  · exact h.guard (h.bind (h.host _ (hflags.reopen _)) fun r => h.errno r)
  · exact h.guard (h.bind (h.host _ (hflags.openByHandle _)) fun r => h.errno r)
  · exact h.err _

theorem openRelativeTo {dir : Fd} {name : Name} {mode : Option UInt32}
    (hc : C.Has (.openat dir name (O_NOFOLLOW ||| O_CLOEXEC ||| flags) mode)) :
    W (openRelativeTo dir name flags mode) :=
  h.bind (h.host _ hc) fun r => h.errno r

theorem statx (fd : Fd) (name : Option Name) : W (statx fd name) :=
  h.bind (h.look (.statx fd name) trivial) fun r => h.ofExcept r

theorem errContext {p : NeutralM α} {msg : String} (hp : W p) : W (errContext p msg) := by
  refine h.bind (h.attempt hp) fun r => ?_
  cases r with
  | ok a => exact h.ret a
  | error e => exact h.err _

theorem toSerializable (f : FileOrHandle) : W f.toSerializable := by
  cases f with
  | handle fh => exact h.ret _
  | file fd =>
    refine h.bind (h.look (.nameToHandle fd none) trivial) fun r => ?_
    exact h.map (h.errno r)
  | invalid e => exact h.err _

theorem getPath : W d.getPath := by
  refine h.bind (h.attempt (h.getFile d)) fun r => ?_
  cases r with
  | error e => exact h.ret _
  | ok fd =>
    refine h.bind (h.look (.getPath fd) trivial) fun path => ?_
    cases path with
    | error e => exact h.ret _
    | ok path =>
      dsimp only
      split <;> exact h.ret _

theorem linkCountAbove (bound : Nat) : W (linkCountAbove d bound) := by
  refine h.bind (h.attempt (h.getFile d)) fun r => ?_
  cases r with
  | error e => exact h.ret _
  | ok fd =>
    refine h.bind (h.look (.statx fd none) trivial) fun st => ?_
    cases st with
    | error | ok => exact h.ret _

theorem procRelativePath (sharedDirPath : Name) :
    W (procRelativePath d sharedDirPath) := by
  refine h.bind (h.getPath d) fun path => ?_
  cases path with
  | error e =>
    have hend : ∀ (p : NeutralM Bool) (msg : IoError), W p →
        W (p.bind fun fallBack => .ret (Except.error (WrappedError.of fallBack msg) :
          Except WrappedError Name)) := fun p msg hp => h.map hp
    dsimp only
    split
    · exact hend _ _ (h.linkCountAbove d 0)
    · exact hend _ _ (h.linkCountAbove d 1)
    · exact hend _ _ (h.ret false)
    · exact hend _ _ (h.ret true)
  | ok path =>
    dsimp only
    split
    · exact h.map (h.linkCountAbove d 1)
    · split <;> exact h.ret _

end HostParts

namespace InodeParts

variable {C : CallClass} {W : ∀ {α : Type}, NeutralM α → Prop} (h : InodeParts cfg C W)

include h

theorem allocateFd : W allocateFd := by
  refine h.bind (h.onFds .allocateFd trivial) fun ok => ?_
  cases ok with
  | true => exact h.ret ()
  | false => exact h.err _

theorem dropFile (f : FileOrHandle) : W (dropFile f) := by
  cases f with
  | file fd => exact h.onFds .releaseFd trivial
  | handle | invalid => exact h.ret ()

theorem newFileOrHandle (pathFd : Fd) (handle : Option FileHandle) :
    W (newFileOrHandle cfg pathFd handle) := by
  cases handle with
  | some fh => exact h.map (h.makeFileHandleOpenable fh)
  | none => exact h.map h.allocateFd

theorem verifyHandle (f : FileOrHandle) : W (verifyHandle cfg f) := by
  unfold Virtiofsd.verifyHandle
  split
  · exact h.map (h.toSerializable f)
  · exact h.ret _

theorem openRoot : W (PassthroughFs.openRoot cfg) := by
  refine h.bind (h.look (.openRoot (O_PATH ||| O_NOFOLLOW ||| O_CLOEXEC)) rfl) fun r => ?_
  refine h.bind (h.errno r) fun pathFd => ?_
  refine h.bind (h.statx pathFd none) fun st => ?_
  refine h.bind (h.getFileHandleOpt pathFd st) fun handle => ?_
  refine h.bind (h.newFileOrHandle pathFd handle) fun fileOrHandle => ?_
  exact h.map (h.attempt (h.verifyHandle fileOrHandle))

theorem openName (parent : InodeData) (name : Name) : W (openName cfg parent name) := by
  refine h.bind (h.getFile parent) fun dir => ?_
  refine h.bind (h.openRelativeTo (C.looks _ rfl)) fun fd => ?_
  refine h.bind (h.statx fd none) fun st => ?_
  exact h.map (h.getFileHandleOpt fd st)

end InodeParts

/-! ## 3. Requests that look at files -/

namespace FileParts

variable {W : ∀ {α : Type}, NeutralM α → Prop}

section Looking

variable {C : CallClass} (h : FileParts cfg C W)

include h

variable (inode : Inode)

theorem getInode : W (PassthroughFs.getInode inode) := by
  refine h.bind (h.query (.get inode) trivial) fun found => ?_
  cases found with
  | some r => exact h.ret r
  | none => exact h.err _

theorem findHandle (handle : Handle) (inode : Inode) :
    W (PassthroughFs.findHandle handle inode) := by
  refine h.bind (h.query (.findHandle handle inode) trivial) fun found => ?_
  cases found with
  | some data =>
    dsimp only
    split
    · exact h.ret _
    · exact h.err _
  | none => exact h.err _

/-- A request on an open file. -/
theorem onHandle {handle : Handle} {inode : Inode} {k : HandleData × Fd → NeutralM α}
    (hk : ∀ x, W (k x)) : W (bind (PassthroughFs.findHandle handle inode) k) :=
  h.bind (h.findHandle handle inode) hk

/-- A request on the descriptor of an inode. -/
theorem onFile {inode : Inode} {k : InodeRef → Fd → NeutralM α} (hk : ∀ r fd, W (k r fd)) :
    W (bind (PassthroughFs.getInode inode) fun r => r.data.getFile.bind (k r)) :=
  h.bind (h.getInode inode) fun r => h.bind (h.getFile r.data) (hk r)

variable (data : InodeData)

theorem openInode
    (hflags : ∀ writeback, C.Opens (PassthroughFs.openInodeFlags cfg writeback flags)) :
    W (PassthroughFs.openInode cfg data flags) :=
  h.bind (h.query (.load .writeback) trivial) fun writeback => h.openFile _ (hflags writeback)

omit h in
/-- The inodes' own opens stay quiet: nothing of what `open_inode` adds or removes matters. -/
theorem openInodeFlags_quiet {writeback : Bool} (h : QuietFlags flags) :
    QuietFlags (PassthroughFs.openInodeFlags cfg writeback flags) := by
  unfold QuietFlags at h ⊢
  rw [word_ext_iff] at h ⊢
  intro i
  have h₀ := h 0
  have h₁ := h 1
  have hi := h i
  simp only [bit_and, bit_not, bit_openInodeFlags, bit_quietFlags, bit_zero] at h₀ h₁ hi ⊢
  grind

/-- An open for reading, to look at a file. -/
theorem openToLook (hflags : QuietFlags flags) :
    W (PassthroughFs.openInode cfg data flags) :=
  h.openInode data fun _ => C.opens_quiet (openInodeFlags_quiet hflags)

/-- One of two steps, and what comes after it. -/
theorem either {c : Prop} [Decidable c] {p q : NeutralM α} {k : α → NeutralM β} (hp : W p)
    (hq : W q) (hk : ∀ a, W (k a)) : W (if c then p.bind k else q.bind k) := by
  split
  · exact h.bind hp hk
  · exact h.bind hq hk

theorem doRelease (handle : Handle) :
    W (PassthroughFs.doRelease inode handle) := by
  refine h.bind (h.query (.removeHandle handle inode) trivial) fun removed => ?_
  cases removed with
  | true => exact h.ret ()
  | false => exact h.err _

theorem readdir (handle : Handle) (size offset : Nat) :
    W (PassthroughFs.readdir inode handle size offset) := by
  unfold PassthroughFs.readdir
  split
  · exact h.ret _
  · refine h.onHandle fun x => ?_
    exact h.bind (h.look (.getdents x.2 (some offset) size) trivial) fun r => h.errno r

theorem getattr : W (PassthroughFs.getattr cfg inode) := by
  refine h.onFile fun _ fd => ?_
  refine h.bind (h.statx fd none) fun st => ?_
  exact h.map (h.ofExcept _)

/-- A part of a request that is done on a condition. -/
theorem when (c : Prop) [Decidable c] {p : NeutralM Unit} {q : NeutralM α} (hp : c → W p)
    (hq : W q) : W (if c then p.bind fun _ => q else q) := by
  split
  · rename_i hc
    exact h.bind (hp hc) fun _ => hq
  · exact hq

theorem statfs : W (PassthroughFs.statfs inode) :=
  h.onFile fun _ fd => h.bind (h.look (.fstatvfs fd) trivial) fun r => by
    cases r with
    | some out => exact h.ret out
    | none => exact h.failed

theorem readlink : W (PassthroughFs.readlink inode) :=
  h.onFile fun _ fd => h.bind (h.look (.readlinkat fd) trivial) fun r => by
    cases r with
    | some buf => exact h.ret buf
    | none => exact h.failed

theorem flush (handle : Handle) : W (PassthroughFs.flush inode handle) :=
  h.onHandle fun x => h.bind (h.look (.dup x.2) trivial) fun r => by
    cases r with
    | some newfd => exact h.libcOk _ (C.looks _ trivial)
    | none => exact h.failed

theorem access (ctx : Context) (inode : Inode) (mask : UInt32) :
    W (PassthroughFs.access cfg ctx inode mask) := by
  refine h.onFile fun _ fd => ?_
  refine h.bind (h.statx fd none) fun st => ?_
  dsimp only
  split
  · exact h.ret ()
  · refine h.bind (h.ofExcept _) fun uid => ?_
    refine h.bind (h.ofExcept _) fun gid => ?_
    exact h.guard (h.guard (h.guard (h.ret ())))

theorem xattrFile : W (PassthroughFs.xattrFile cfg data) := by
  unfold PassthroughFs.xattrFile
  split
  · exact h.openToLook data rfl
  · exact h.getFile _

theorem onXattrFile {call : NeutralM α} (hc : W call) :
    W (PassthroughFs.onXattrFile data call) := by
  unfold PassthroughFs.onXattrFile
  split
  · exact hc
  · exact h.inProcSelfFd hc

theorem getxattr (name : Name) (size : Nat) :
    W (PassthroughFs.getxattr cfg inode name size) := by
  refine h.guard ?_
  refine h.bind (h.attempt (h.mapClientXattrname name)) fun mapped => ?_
  cases mapped with
  | error e => exact h.err _
  | ok name =>
    refine h.bind (h.ret name) fun name => ?_
    refine h.bind (h.getInode inode) fun data => ?_
    refine h.bind (h.xattrFile data.data) fun fd => ?_
    refine h.bind (h.onXattrFile data.data (h.look (.getxattr fd _ name size) trivial))
      fun r => ?_
    cases r with
    | none => exact h.failed
    | some x => exact h.ret _

theorem listxattr (size : Nat) :
    W (PassthroughFs.listxattr cfg inode size) := by
  refine h.guard ?_
  refine h.bind (h.getInode inode) fun data => ?_
  refine h.bind (h.xattrFile data.data) fun fd => ?_
  refine h.bind (h.onXattrFile data.data (h.look (.listxattr fd _ size) trivial)) fun r => ?_
  cases r with
  | none => exact h.failed
  | some x =>
    dsimp only
    split
    · exact h.ret _
    · exact h.map (h.mapServerXattrlist _)

theorem lseek (handle : Handle) (offset : Nat) (whence : UInt32) :
    W (PassthroughFs.lseek inode handle offset whence) :=
  h.onHandle fun x => h.bind (h.look (.lseek x.2 offset whence) trivial) fun r => by
    cases r with
    | some n => exact h.ret n
    | none => exact h.failed

theorem syncfs : W (PassthroughFs.syncfs cfg inode) := by
  refine h.bind (h.getInode inode) fun data => ?_
  have hflags : QuietFlags (O_RDONLY ||| O_NOFOLLOW) := rfl
  exact h.bind (h.openToLook data.data hflags) fun _ => h.libcOk _ (C.looks _ trivial)

theorem fsync (datasync : Bool) (handle : Handle) :
    W (PassthroughFs.fsync inode datasync handle) := by
  refine h.onHandle fun x => ?_
  cases datasync with
  | true | false => exact h.libcOk _ (C.looks _ trivial)

/-- What the reader or writer of a request does. -/
def Transfers (W : ∀ {α : Type}, NeutralM α → Prop) : FileRequest → Prop
  | .read _ _ w size offset => ∀ fd, W (w.readFromFileAt fd size offset)
  | .write _ _ r size offset _ _ _ => ∀ fd append, W (r.writeToFileAt fd size offset append)
  | _ => True

/-- Requests that only look at files. -/
def Looks : FileRequest → Bool
  | .release .. => true
  | .read .. => true
  | .readdir .. => true
  | .getattr .. => true
  | .statfs .. => true
  | .readlink .. => true
  | .flush .. => true
  | .fsync .. => true
  | .access .. => true
  | .getxattr .. => true
  | .listxattr .. => true
  | .lseek .. => true
  | .syncfs .. => true
  | _ => false

theorem serveLooking (request : FileRequest) (hlooks : Looks request = true)
    (hr : Transfers W request) : W (PassthroughFs.serveFile cfg request) := by
  cases request with
  | release inode handle => exact h.map (h.doRelease _ _)
  | read inode handle w size offset =>
    exact h.map (h.onHandle fun x => hr x.2)
  | readdir inode handle size offset => exact h.map (h.readdir _ _ _ _)
  | getattr inode => exact h.map (h.getattr _)
  | statfs inode => exact h.map (h.statfs _)
  | readlink inode => exact h.map (h.readlink _)
  | flush inode handle => exact h.map (h.flush _ _)
  | fsync inode datasync handle => exact h.map (h.fsync _ _ _)
  | access ctx inode mask => exact h.map (h.access _ _ _)
  | getxattr inode name size => exact h.map (h.getxattr _ _ _)
  | listxattr inode size => exact h.map (h.listxattr _ _)
  | lseek inode handle offset whence => exact h.map (h.lseek _ _ _ _)
  | syncfs inode => exact h.map (h.syncfs _)
  | _ => cases hlooks

/-- **The requests on a read-only share that open no file.**  Those that would write are
refused. -/
theorem serveLookingReadOnly {request : FileRequest} (hopens : request.opens = false)
    (hr : Looks request = true → Transfers W request) :
    W (PassthroughFsRo.serveFile cfg request) := by
  cases request with
  | «open» | opendir => cases hopens
  | access ctx inode mask => exact h.guard (h.map (h.access _ _ _))
  | setattr | write | fallocate | setxattr | removexattr | copyfilerange => exact h.err _
  | _ => exact h.serveLooking _ rfl (hr rfl)

end Looking

variable (h : FileParts cfg .offGuest W)

include h

/-! ## 4. Shared parts of requests on files -/

theorem dropCredentials (uid gid : Option UInt32) (sup : Bool) :
    W (dropCredentials uid gid sup) := by
  have hend : W (if sup then discard (Virtiofsd.host .dropsupgroups) else .ret ()) := by
    split
    · exact h.ignore _ trivial
    · exact h.ret ()
  cases uid with
  | none =>
    cases gid with
    | none => exact hend
    | some gid => exact h.bind (h.ignore _ trivial) fun _ => hend
  | some uid =>
    refine h.bind (h.ignore _ trivial) fun _ => ?_
    cases gid with
    | none => exact hend
    | some gid => exact h.bind (h.ignore _ trivial) fun _ => hend

/-- A program that returns what is to be done at the end of a scope. -/
def Scope (W : ∀ {α : Type}, NeutralM α → Prop) (p : NeutralM (NeutralM Unit)) : Prop :=
  ∀ (β : Type) (k : NeutralM Unit → NeutralM β), (∀ d, W d → W (k d)) → W (p.bind k)

omit h in
theorem scope_ret {d : NeutralM Unit} (hd : W d) : Scope W (.ret d) := fun _ _ hk => hk d hd

theorem scope_bind {p : NeutralM α} {q : α → NeutralM (NeutralM Unit)} (hp : W p)
    (hq : ∀ a, Scope W (q a)) : Scope W (p.bind q) := by
  intro β k hk
  rw [bind_assoc]
  exact h.bind hp fun a => hq a β k hk

/-- A step that is made on a condition, and what comes after it. -/
theorem scope_when (c : Prop) [Decidable c] {p : NeutralM Unit} {q : NeutralM (NeutralM Unit)}
    (hp : W p) (hq : Scope W q) : Scope W (if c then p.bind fun _ => q else q) := by
  split
  · exact h.scope_bind hp fun _ => hq
  · exact hq

theorem setCredentials (uid gid : UInt32) (keep : Bool) (sup : List UInt32) :
    Scope W (setCredentials uid gid keep sup) := by
  refine h.scope_bind (h.host .geteuid trivial) fun currentUid => ?_
  refine h.scope_bind (h.host .getegid trivial) fun currentGid => ?_
  dsimp only
  generalize decide (uid ≠ 0 ∧ uid ≠ currentUid) = changeUid
  generalize decide (gid ≠ 0 ∧ gid ≠ currentGid) = changeGid
  have hend : Scope W (if !changeUid && !changeGid then .ret (.ret ())
      else .ret (Virtiofsd.dropCredentials (if changeUid then some currentUid else none)
        (if changeGid then some currentGid else none) !sup.isEmpty)) := by
    split
    · exact scope_ret (h.ret ())
    · exact scope_ret (h.dropCredentials _ _ _)
  -- from the last step to the first
  have hkeep := h.scope_when (changeUid && keep) (h.ignore .addCapability trivial) hend
  have huid := h.scope_when changeUid
    (h.bind (h.host (.seteffuid uid) trivial) fun r => h.errno r) hkeep
  have hgid := h.scope_when changeGid
    (h.bind (h.host (.seteffgid gid) trivial) fun r => h.errno r) huid
  exact h.scope_when (!sup.isEmpty)
    (h.bind (h.host (.setsupgroup sup) trivial) fun r => h.errno r) hgid

theorem unixCredentialsGuard (ctx : Context) (extensions : Extensions) :
    Scope W (unixCredentialsGuard cfg ctx extensions) := by
  refine h.scope_bind (h.ofExcept _) fun uid => ?_
  refine h.scope_bind (h.ofExcept _) fun gid => ?_
  refine h.scope_bind (h.ofExcept _) fun gids => ?_
  refine h.scope_bind (h.query (.load .supGroupExtension) trivial) fun sup => ?_
  exact h.setCredentials uid gid _ gids

theorem withCredentials (ctx : Context) (extensions : Extensions) (umask : Option UInt32)
    {body : NeutralM α} (hbody : W body) : W (withCredentials cfg ctx extensions umask body) := by
  refine h.unixCredentialsGuard ctx extensions _ _ fun dropGuard hdrop => ?_
  refine h.bind (h.query (.load .posixAcl) trivial) fun posixAcl => ?_
  refine h.ensuring ?_ hdrop
  split
  · exact h.bind (h.host _ trivial) fun old => h.ensuring hbody (h.ignore _ trivial)
  · exact hbody

theorem clearFileCapabilities (fd : Fd) (type : Nat) (oPath : Bool) :
    W (PassthroughFs.clearFileCapabilities cfg fd type oPath) := by
  unfold PassthroughFs.clearFileCapabilities
  split
  · exact h.ret ()
  · rename_i name _
    split
    · exact h.ret ()
    · refine h.either (h.inProcSelfFd (h.host _ trivial)) (h.host _ trivial) fun ok => ?_
      cases ok with
      | true => exact h.ret ()
      | false =>
        refine h.bind (h.host .lastOsError trivial) fun e => ?_
        split
        · exact h.ret ()
        · exact h.err _

theorem clearSgid (fd : Fd) (oPath : Bool) : W (PassthroughFs.clearSgid fd oPath) :=
  h.bind (h.statx fd none) fun _ => h.bind (h.host _ trivial) fun r => h.errno r

theorem doOpen (inode : Inode) (killPriv : Bool) (flags : UInt32) :
    W (PassthroughFs.doOpen cfg inode killPriv flags) := by
  refine h.bind (h.getInode inode) fun data => ?_
  refine h.bind (h.withoutFsetid (h.openInode _ fun _ => CallClass.opens_offGuest _)) fun fd => ?_
  have hend : ∀ flags type, W (bind (PassthroughFs.newHandle inode fd type flags)
      fun handle => .ret (some handle, PassthroughFs.openOptions cfg flags)) :=
    fun flags type => h.map (h.newHandle inode fd type flags)
  dsimp only
  generalize (if cfg.cleanNoatime then flags &&& ~~~O_APPEND &&& ~~~O_NOATIME
    else flags &&& ~~~O_APPEND) = flags
  split
  · exact h.bind (h.clearFileCapabilities _ _ _) fun _ => hend _ _
  · exact hend _ _

/-! ## 5. Requests on files -/

theorem write (inode : Inode) (handle : Handle) {r : ZeroCopyReader} {size offset : Nat}
    (delayedWrite killPriv : Bool) (flags : UInt32)
    (hr : ∀ fd append, W (r.writeToFileAt fd size offset append)) :
    W (PassthroughFs.write cfg inode handle r size offset delayedWrite killPriv flags) :=
  h.onHandle fun _ => h.withoutFsetid <|
    h.bind (h.clearFileCapabilities _ _ _) fun _ => hr _ _

theorem mapIdIf (valid : Bool) (map : IdMap) (id : UInt32) :
    W (PassthroughFs.mapIdIf valid map id) := by
  unfold PassthroughFs.mapIdIf
  split
  · exact h.ofExcept _
  · exact h.ret _

theorem setattrMode (data : PassthroughFs.SetattrData) (mode : UInt32) :
    W (PassthroughFs.setattrMode data mode) := by
  cases data with
  | handle | procPath => exact h.libcOk _ trivial

theorem setattrOwner (inodeFile : Fd) (type : Nat) (attr : SetattrIn) (valid : SetattrValid) :
    W (PassthroughFs.setattrOwner cfg inodeFile type attr valid) := by
  refine h.bind (h.mapIdIf _ _ _) fun uid => ?_
  refine h.bind (h.mapIdIf _ _ _) fun gid => ?_
  exact h.bind (h.clearFileCapabilities _ _ _) fun _ => h.libcOk _ trivial

/-- Without a handle the file was opened for writing, so the assertion holds. -/
theorem setattrSize (data : PassthroughFs.SetattrData) (rdwr : Bool) (inodeFile : Fd) (type : Nat)
    (attr : SetattrIn) (valid : SetattrValid) (hdata : ∀ fd, data = .procPath fd → rdwr = true) :
    W (PassthroughFs.setattrSize cfg data rdwr inodeFile type attr valid) := by
  have hend : ∀ fd, W (Virtiofsd.withoutFsetid (cfg.killprivV2 && valid.killSuidgid)
      (bind (PassthroughFs.clearFileCapabilities cfg fd type false)
        fun _ => Virtiofsd.libcOk (.ftruncate fd attr.size))) :=
    fun fd => h.withoutFsetid (h.bind (h.clearFileCapabilities _ _ _) fun _ => h.libcOk _ trivial)
  cases data with
  | handle fd => exact hend fd
  | procPath fd =>
    obtain rfl := hdata fd rfl
    exact hend inodeFile

theorem setattrTimes (data : PassthroughFs.SetattrData) (attr : SetattrIn)
    (valid : SetattrValid) : W (PassthroughFs.setattrTimes data attr valid) := by
  cases data with
  | handle | procPath => exact h.libcOk _ trivial

theorem setattr (inode : Inode) (attr : SetattrIn) (handle : Option Handle)
    (valid : SetattrValid) : W (PassthroughFs.setattr cfg inode attr handle valid) := by
  refine h.bind (h.getInode inode) fun data => ?_
  refine h.either (h.openFile _ (CallClass.opens_offGuest _)) (h.getFile _) fun inodeFile => ?_
  have hparts := fun (target : PassthroughFs.SetattrData)
      (ht : ∀ fd, target = .procPath fd → handle.isNone = true) =>
    h.when valid.mode (fun _ => h.setattrMode target attr.mode) <|
    h.when (valid.uid || valid.gid) (fun _ => h.setattrOwner inodeFile
      (fileType data.data.mode) attr valid) <|
    h.when valid.size (fun hs => h.setattrSize target (handle.isNone && valid.size) inodeFile
      (fileType data.data.mode) attr valid fun fd hfd => by simp [ht fd hfd, hs]) <|
    h.when (valid.atime || valid.mtime) (fun _ => h.setattrTimes target attr valid)
      (h.getattr inode)
  cases handle with
  | some handle => exact h.onHandle fun x => hparts (.handle x.2) fun _ ht => nomatch ht
  | none => exact hparts (.procPath inodeFile) fun _ _ => rfl

/-- The end of a call that has succeeded or failed. -/
theorem checked {ok : Bool} : W (if !ok then bind Virtiofsd.lastOsError fun e => .err e
    else .ret ()) := by
  cases ok with
  | true => exact h.ret ()
  | false => exact h.failed

theorem setxattr (inode : Inode) (name : Name) (value : List UInt8) (flags : UInt32)
    (killSgid : Bool) : W (PassthroughFs.setxattr cfg inode name value flags killSgid) := by
  refine h.guard ?_
  refine h.bind (h.getInode inode) fun data => ?_
  refine h.bind (h.mapClientXattrname name) fun name => ?_
  refine h.bind (h.query (.load .posixAcl) trivial) fun posixAcl => ?_
  refine h.bind (h.xattrFile data.data) fun fd => ?_
  refine h.bind (h.clearFileCapabilities _ _ _) fun _ => ?_
  refine h.when _ (fun _ => h.clearSgid _ _) ?_
  exact h.bind (h.onXattrFile data.data (h.host _ trivial)) fun _ => h.checked

theorem removexattr (inode : Inode) (name : Name) :
    W (PassthroughFs.removexattr cfg inode name) := by
  refine h.guard ?_
  refine h.bind (h.getInode inode) fun data => ?_
  refine h.bind (h.mapClientXattrname name) fun name => ?_
  refine h.bind (h.xattrFile data.data) fun fd => ?_
  exact h.bind (h.onXattrFile data.data (h.host _ trivial)) fun _ => h.checked

theorem copyfilerange (inodeIn : Inode) (handleIn : Handle) (offsetIn : Nat) (inodeOut : Inode)
    (handleOut : Handle) (offsetOut len flags : Nat) :
    W (PassthroughFs.copyfilerange inodeIn handleIn offsetIn inodeOut handleOut offsetOut len
      flags) := by
  refine h.onHandle fun x => h.onHandle fun y => ?_
  refine h.bind (h.host (.copyFileRange x.2 offsetIn y.2 offsetOut len flags) trivial) fun r => ?_
  cases r with
  | some n => exact h.ret n
  | none => exact h.failed

/-- **All requests on files and attributes.** -/
theorem serveFile (request : FileRequest) (hr : Transfers W request) :
    W (PassthroughFs.serveFile cfg request) := by
  cases request with
  | «open» | opendir => exact h.map (h.doOpen _ _ _)
  | write inode handle r size offset delayedWrite killPriv flags =>
    exact h.map (h.write _ _ _ _ _ hr)
  | setattr inode attr handle valid => exact h.map (h.setattr _ _ _ _)
  | setxattr inode name value flags killSgid =>
    exact h.map (h.setxattr _ _ _ _ _)
  | removexattr inode name => exact h.map (h.removexattr _ _)
  | fallocate inode handle mode offset length =>
    exact h.map (h.onHandle fun _ => h.libcOk _ trivial)
  | copyfilerange inodeIn handleIn offsetIn inodeOut handleOut offsetOut len flags =>
    exact h.map (h.copyfilerange _ _ _ _ _ _ _ _)
  | _ => exact h.serveLooking _ rfl hr

theorem doMknodMkdirSymlinkSecctx (parentFile : Fd) (name : Name) (secctx : SecContext) :
    W (PassthroughFs.doMknodMkdirSymlinkSecctx cfg parentFile name secctx) := by
  refine h.bind (h.mapClientXattrname secctx.name) fun xattrName => ?_
  refine h.bind (h.openRelativeTo trivial) fun pathFd => ?_
  exact h.inProcSelfFd (h.libcOk _ trivial)

theorem labelNewName (parentFile : Fd) (name : Name) (extensions : Extensions)
    (removeFlags : Nat) :
    W (PassthroughFs.labelNewName cfg parentFile name extensions removeFlags) := by
  unfold PassthroughFs.labelNewName
  split
  · exact h.ret ()
  · exact h.onErr (h.doMknodMkdirSymlinkSecctx _ _ _) (h.ignore (.libc _) trivial)

theorem doCreate (ctx : Context) (parentFile : Fd) (name : Name) (mode flags umask : UInt32)
    (extensions : Extensions) :
    W (PassthroughFs.doCreate cfg ctx parentFile name mode flags umask extensions) := by
  refine h.bind (h.withCredentials _ _ _ (h.openRelativeTo trivial)) fun fd => ?_
  split
  · exact h.ret fd
  · refine h.bind (h.onErr (h.mapClientXattrname _) (h.ignore (.libc _) trivial))
      fun xattrName => ?_
    refine h.bind (h.host (.libc _) trivial) fun ok => ?_
    cases ok with
    | true => exact h.ret fd
    | false => exact h.bind (h.ignore (.libc _) trivial) fun _ => h.failed

theorem createHandle (mode : UInt32) (killPriv : Bool) (flags : UInt32) (entry : Entry)
    (fd : Option Fd) : W (PassthroughFs.createHandle cfg mode killPriv flags entry fd) := by
  cases fd with
  | some fd => exact h.newHandle _ _ _ _
  | none =>
    refine h.bind (h.doOpen _ _ _) fun x => ?_
    rcases x with ⟨_ | handle, opts⟩
    · exact h.err _
    · exact h.ret handle

theorem rofsOpen {openFn : UInt32 → NeutralM α} (ho : ∀ flags, W (openFn flags)) :
    W (PassthroughFsRo.rofsOpen flags openFn) := by
  refine h.bind (h.ofExcept _) fun r => ?_
  cases r with
  | «open» flags => exact ho flags
  | openExisting flags =>
    refine h.bind (h.attempt (ho flags)) fun r => ?_
    cases r with
    | ok a => exact h.ret a
    | error e => exact h.err _

theorem serveFileReadOnly (request : FileRequest) (hr : Transfers W request) :
    W (PassthroughFsRo.serveFile cfg request) := by
  cases request with
  | «open» inode killPriv flags =>
    exact h.map (h.rofsOpen fun _ => h.doOpen _ _ _)
  | opendir inode flags => exact h.map (h.rofsOpen fun _ => h.doOpen _ _ _)
  | _ => exact h.serveLookingReadOnly rfl fun _ => hr

end FileParts

/-! ## 6. Requests on names -/

namespace ClaimParts

variable {C : CallClass} {W : ∀ {α : Type}, FsM α → Prop} (h : ClaimParts cfg C W)

include h

theorem dropRef (r : InodeRef) : W (StrongInodeReference.drop r) := h.refAct (.dropRef r) trivial

theorem dropOpt (r : Option InodeRef) : W (StrongInodeReference.dropOpt r) := by
  cases r with
  | none => exact h.ret ()
  | some r => exact h.dropRef r

theorem query (q : Query) (hq : q.Plain) : W (liftM (Virtiofsd.query q) : FsM q.Ans) :=
  h.files.query q hq

theorem tryLookupImplementation (parent : InodeData) (name : Name) :
    W (tryLookupImplementation cfg parent name) :=
  h.bind (h.files.openName parent name) fun _ =>
    h.map (h.claimInode _ _)

theorem tryLookup (parent : InodeData) (name : Name) : W (tryLookup cfg parent name) :=
  h.map (h.tryLookupImplementation parent name)

/-- What requests that change a name do around the call, if `after_invalidating_path` has the
property. -/
theorem changingName (hafter : ∀ r, W (afterInvalidatingPath cfg r)) (parent : InodeData)
    (name : Name) {change : NeutralM Bool} (hc : W (liftM change : FsM Bool)) :
    W (PassthroughFs.changingName cfg parent name change) := by
  have hbefore : W (beforeInvalidatingPath cfg parent name) := by
    refine h.bind (h.attempt (h.tryLookup parent name)) fun found => ?_
    cases found with
    | ok inode => exact h.ret inode
    | error e => exact h.ret none
  refine h.bind hbefore fun invalidated => ?_
  refine h.bind (h.onErr hc (h.dropOpt invalidated)) fun ok => ?_
  have hafter' : W (afterInvalidating cfg invalidated) := by
    cases invalidated with
    | some inode => exact hafter inode
    | none => exact h.ret ()
  refine h.bind hafter' fun _ => ?_
  cases ok with
  | true => exact h.ret ()
  | false => exact h.bind h.files.lastOsError fun _ => h.err _

end ClaimParts

namespace LookupParts

variable {C : CallClass} {W : ∀ {α : Type}, FsM α → Prop} (h : LookupParts cfg C W)

include h

theorem doLookup (parent : Inode) (name : Name) : W (doLookup cfg parent name) := by
  refine h.bind (h.query (.get parent) trivial) fun found => ?_
  cases found with
  | none => exact h.err _
  | some p =>
    refine h.bind (h.tryLookupImplementation p.data name) fun x => ?_
    refine h.bind (h.query (.load .announceSubmounts) trivial) fun announce => ?_
    dsimp only
    split
    on_goal 1 => refine h.bind (h.ret _) fun inode => ?_
    on_goal 2 => refine h.bind (h.insertInode p name _ _ _) fun inode => ?_
    -- with the inode, whether it was there or is new
    all_goals
      split
      · exact h.bind (h.dropRef _) fun _ => h.err _
      · refine h.bind (h.map (h.refAct (.leak _) trivial)) fun inodeId => ?_
        exact h.map (h.dentry _)

theorem forgetDentries : ∀ inodes : List Inode,
    W (liftM (PassthroughFs.forgetDentries inodes) : FsM Unit)
  | [] => h.ret ()
  | inode :: inodes => by
    refine h.files.bind (h.files.query (.get inode) trivial) fun found => ?_
    exact h.files.when _ (fun _ => h.dentry (.forget inode)) (forgetDentries inodes)

theorem forget {inode : Inode} {count : Nat} (hf : W (Virtiofsd.refAct (.forgetOne inode count))) :
    W (PassthroughFs.forget inode count) := by
  refine h.bind hf fun _ => ?_
  refine h.bind (h.files.query .hasDentryIndex trivial) fun hasIndex => ?_
  cases hasIndex with
  | true => exact h.forgetDentries _
  | false => exact h.ret ()

theorem batchForget {requests : List (Inode × Nat)}
    (hf : W (Virtiofsd.refAct (.forgetMany requests))) :
    W (PassthroughFs.batchForget requests) := by
  refine h.bind (h.files.query .hasDentryIndex trivial) fun hasIndex => ?_
  refine h.bind hf fun _ => ?_
  cases hasIndex with
  | true => exact h.forgetDentries _
  | false => exact h.ret ()

theorem createEntryReadOnly (parent : Inode) (name : Name) :
    W (PassthroughFsRo.createEntry cfg parent name) := by
  refine h.bind (h.attempt (h.doLookup parent name)) fun r => ?_
  cases r with
  | ok entry => exact h.ret entry
  | error e => exact h.err _

/-- **Every request on a read-only share that opens no file.** -/
theorem serveLookingReadOnly (hforget : ∀ inode count, W (PassthroughFs.forget inode count))
    (hbatch : ∀ requests, W (PassthroughFs.batchForget requests)) {request : Request}
    (hopens : request.opens = false)
    (hr : ∀ r, request = .file r → FileParts.Looks r = true →
      FileParts.Transfers (fun {α : Type} (p : NeutralM α) => W (liftM p : FsM α)) r) :
    W (PassthroughFsRo.serve cfg request) := by
  cases request with
  | file r =>
    exact h.map (h.files.serveLookingReadOnly hopens (hr r rfl))
  | create => cases hopens
  | symlink | mknod | mkdir | unlink | rmdir | rename | link => exact h.err _
  | lookup parent name => exact h.map (h.doLookup parent name)
  | forget inode count => exact h.map (hforget inode count)
  | batchForget requests => exact h.map (hbatch requests)

end LookupParts

namespace RequestParts

variable {W : ∀ {α : Type}, FsM α → Prop} (h : RequestParts cfg W)

include h

/-- What MKDIR, MKNOD and SYMLINK have in common. -/
theorem newName {parent : Inode} {name : Name} {extensions : Extensions} {removeFlags : Nat}
    {change : Fd → NeutralM Bool} (hc : ∀ fd, W (liftM (change fd) : FsM Bool)) :
    W (bind (liftM (PassthroughFs.getInode parent)) fun data : InodeRef =>
      bind (liftM data.data.getFile) fun fd : Fd =>
      bind (PassthroughFs.changingName cfg data.data name (change fd)) fun _ =>
      bind (liftM (PassthroughFs.labelNewName cfg fd name extensions removeFlags))
        fun _ : Unit => Virtiofsd.doLookup cfg parent name) := by
  refine h.bind (h.files.getInode parent) fun data => ?_
  refine h.bind (h.files.getFile data.data) fun fd => ?_
  refine h.bind (h.changingName h.afterInvalidatingPath data.data name (hc fd)) fun _ => ?_
  exact h.bind (h.files.labelNewName _ _ _ _) fun _ => h.doLookup parent name

theorem link (inode newparent : Inode) (newname : Name) :
    W (PassthroughFs.link cfg inode newparent newname) := by
  refine h.bind (h.files.getInode inode) fun data => ?_
  refine h.bind (h.files.getInode newparent) fun newInode => ?_
  refine h.bind (h.files.getFile data.data) fun inodeFile => ?_
  refine h.bind (h.files.getFile newInode.data) fun newparentFile => ?_
  refine h.bind (h.changingName h.afterInvalidatingPath _ _ (h.files.host (.libc _) trivial))
    fun _ => ?_
  exact h.doLookup newparent newname

theorem rename (olddir : Inode) (oldname : Name) (newdir : Inode) (newname : Name)
    (flags : UInt32) : W (PassthroughFs.rename cfg olddir oldname newdir newname flags) := by
  refine h.bind (h.files.getInode olddir) fun oldInode => ?_
  refine h.bind (h.files.getInode newdir) fun newInode => ?_
  refine h.bind (h.files.getFile oldInode.data) fun oldFile => ?_
  refine h.bind (h.files.getFile newInode.data) fun newFile => ?_
  refine h.bind (h.changingName h.afterInvalidatingPath _ _ (h.files.host (.libc _) trivial))
    fun _ => ?_
  refine h.bind (h.attempt (h.updateInodeMigrationInfo newInode newname)) fun _ => ?_
  exact h.dentry _

theorem doUnlink (parent : Inode) (name : Name) (flags : Nat) :
    W (PassthroughFs.doUnlink cfg parent name flags) := by
  refine h.bind (h.files.getInode parent) fun data => ?_
  refine h.bind (h.files.getFile data.data) fun fd => ?_
  refine h.bind (h.changingName h.afterInvalidatingPath _ _ (h.files.host (.libc _) trivial))
    fun _ => ?_
  exact h.dentry _

theorem createEntry (ctx : Context) (parent : Inode) (name : Name) (mode flags umask : UInt32)
    (extensions : Extensions) :
    W (PassthroughFs.createEntry cfg ctx parent name mode flags umask extensions) := by
  refine h.bind (h.files.getInode parent) fun data => ?_
  refine h.bind (h.files.getFile data.data) fun fd => ?_
  refine h.bind (h.files.attempt (h.files.doCreate _ _ _ _ _ _ _)) fun created => ?_
  cases created with
  | ok fd => exact h.map (h.doLookup parent name)
  | error e =>
    dsimp only
    split
    · exact h.map (h.doLookup parent name)
    · exact h.err _

/-- What the reader or writer of a request does. -/
def Transfers (W : ∀ {α : Type}, FsM α → Prop) : Request → Prop
  | .file r => FileParts.Transfers (fun {α : Type} (p : NeutralM α) => W (liftM p : FsM α)) r
  | _ => True

/-- **All requests of `PassthroughFs`.** -/
theorem serve (r : Request) (hr : Transfers W r) : W (PassthroughFs.serve cfg r) := by
  cases r with
  | file r => exact h.map (h.files.serveFile r hr)
  | lookup parent name => exact h.map (h.doLookup parent name)
  | forget inode count => exact h.map (h.forget inode count)
  | batchForget requests => exact h.map (h.batchForget requests)
  | mkdir ctx parent name mode umask extensions =>
    have hc : ∀ fd, W (liftM (withCredentials cfg ctx extensions (some umask)
        (libc (.mkdirat fd name mode))) : FsM Bool) :=
      fun fd => h.files.withCredentials _ _ _ (h.files.host (.libc _) trivial)
    exact h.map (h.newName hc)
  | mknod ctx parent name mode rdev umask extensions =>
    have hc : ∀ fd, W (liftM (withCredentials cfg ctx extensions (some umask)
        (libc (.mknodat fd name mode rdev))) : FsM Bool) :=
      fun fd => h.files.withCredentials _ _ _ (h.files.host (.libc _) trivial)
    exact h.map (h.newName hc)
  | symlink ctx linkname parent name extensions =>
    have hc : ∀ fd, W (liftM (withCredentials cfg ctx extensions none
        (libc (.symlinkat linkname fd name))) : FsM Bool) :=
      fun fd => h.files.withCredentials _ _ _ (h.files.host (.libc _) trivial)
    exact h.map (h.newName hc)
  | link inode newparent newname =>
    exact h.map (h.link inode newparent newname)
  | rename olddir oldname newdir newname flags =>
    exact h.map (h.rename olddir oldname newdir newname flags)
  | unlink parent name | rmdir parent name => exact h.map (h.doUnlink parent name _)
  | create ctx parent name mode killPriv flags umask extensions =>
    refine h.map (h.bind (h.createEntry _ _ _ _ _ _ _) fun x => ?_)
    exact h.map (h.files.createHandle mode killPriv flags x.1 x.2)

/-- **All requests of `PassthroughFsRo`.** -/
theorem serveReadOnly (r : Request) (hr : Transfers W r) : W (PassthroughFsRo.serve cfg r) := by
  cases r with
  | file r => exact h.map (h.files.serveFileReadOnly r hr)
  | create ctx parent name mode killPriv flags umask extensions =>
    refine h.map (h.bind (h.createEntryReadOnly parent name) fun entry => ?_)
    exact h.map (h.files.rofsOpen fun _ => h.files.doOpen _ _ _)
  | _ => exact h.serveLookingReadOnly h.forget h.batchForget rfl fun _ hfile => nomatch hfile

end RequestParts

/-! ## 7. Properties that panics have -/

section Load

variable {W : ∀ {α : Type}, NeutralM α → Prop} (hW : Compositional W)
  (hquery : ∀ q : Query, q.Plain → W (query q))

include hW hquery

theorem blockXattr_of_load (name : Name) : W (PassthroughFs.blockXattr name) := by
  refine hW.bind (hquery (.load .posixAcl) trivial) fun posixAcl => ?_
  cases posixAcl with
  | true | false => exact hW.ret _

theorem filterXattrs_of_load : ∀ names : List Name, W (PassthroughFs.filterXattrs names)
  | [] => hW.ret _
  | name :: names => by
    refine hW.bind (blockXattr_of_load hW hquery name) fun blocked => ?_
    exact hW.map (filterXattrs_of_load names)

end Load

section Panics

variable {W : ∀ {α : Type}, NeutralM α → Prop} (hW : Compositional W)
  (hpanic : ∀ {α : Type} (q : LocalPanic), W (.panic q : NeutralM α))

include hW hpanic

/-- If panics have the property, only the accesses to the shared state are left. -/
theorem inodeParts_of_panics {C : CallClass} (hhost : ∀ c, C.Has c → W (host c))
    (honFds : ∀ q : Query, q.OnFds → W (query q)) : InodeParts cfg C W where
  toCompositional := hW
  host := hhost
  onFds := honFds
  getFileHandleOpt fd st := by
    unfold getFileHandleOpt
    split
    · exact hW.ret _
    · refine hW.bind (hhost _ (C.looks _ trivial)) fun r => ?_
      cases r with
      | ok fh => exact hW.ret _
      | error e =>
        dsimp only
        split
        · exact hW.err _
        · split
          · exact hpanic _
          · split
            · exact hW.err _
            · exact hW.ret _
  makeFileHandleOpenable fh := by
    unfold makeFileHandleOpenable
    split
    · exact hpanic _
    · exact hW.bind (hhost _ (C.looks _ trivial)) fun r => hW.ofExcept r

theorem fileParts_of_panics {C : CallClass} (hhost : ∀ c, C.Has c → W (host c))
    (hquery : ∀ q : Query, q.Plain → W (query q))
    (hnew : ∀ inode fd type flags, W (PassthroughFs.newHandle inode fd type flags)) :
    FileParts cfg C W where
  toInodeParts := inodeParts_of_panics hW hpanic hhost fun q hq =>
    hquery q (by cases q <;> first | exact trivial | exact hq.elim)
  query := hquery
  withoutFsetid := by
    intro α drop body hbody
    unfold withoutFsetid
    split
    · exact hbody
    · refine hW.bind (hhost _ (C.looks _ trivial)) fun r => ?_
      refine hW.bind (hW.ofExcept r) fun dropped => ?_
      refine hW.ensuring hbody ?_
      cases dropped with
      | false => exact hW.ret ()
      | true =>
        refine hW.bind (hhost .restoreCapability (C.looks _ trivial)) fun restored => ?_
        cases restored with
        | true => exact hW.ret ()
        | false => exact hpanic _
  inProcSelfFd := by
    intro α body hbody
    refine hW.bind (hhost _ (C.looks _ trivial)) fun r => ?_
    cases r with
    | error e => exact hpanic _
    | ok _ =>
      refine hW.ensuring hbody (hW.bind (hhost _ (C.looks _ trivial)) fun r => ?_)
      cases r with
      | error e => exact hpanic _
      | ok _ => exact hW.ret ()
  mapClientXattrname name := by
    refine hW.bind (blockXattr_of_load hW hquery name) fun blocked => ?_
    cases blocked with
    | true => exact hW.err _
    | false =>
      simp only [Bool.false_eq_true, if_false]
      split
      · exact hW.ret _
      · split
        · exact hpanic _
        · exact hW.err _
        · exact hW.err _
        · exact hW.ret _
  mapServerXattrlist names := by
    have hfilter := fun all => filterXattrs_of_load hW hquery (splitNames all)
    unfold PassthroughFs.mapServerXattrlist
    split
    · exact hW.bind (hW.ret names) fun all => hW.map (hfilter all)
    · split
      · exact hW.bind (hW.ret _) fun all => hW.map (hfilter all)
      · exact hW.bind (hpanic _) fun all => hW.map (hfilter all)
  newHandle := hnew

/-- The transfers of the server. -/
theorem loop_of_panics {t : Transfer} {fd : Fd}
    (hvectored : ∀ bufs off, W (t.vectored fd bufs off)) (start : Nat) :
    ∀ (fuel : Nat) (c : DescriptorChainConsumer) (count off : Nat),
      W (t.loop fd start fuel c count off)
  | 0, _, _, _ => hW.ret _
  | fuel + 1, c, count, off => by
    have hcall : ∀ bufs, W (t.vectoredAtVolatile fd bufs off) := by
      intro bufs
      unfold Transfer.vectoredAtVolatile
      split
      · exact hW.ret _
      · split
        · exact hpanic _
        · refine hW.bind (hvectored bufs off) fun r => ?_
          cases r with
          | ok n => exact hW.ret n
          | error e => exact hW.err _
    have hconsume : W (c.consume count fun bufs => t.vectoredAtVolatile fd bufs off) := by
      unfold DescriptorChainConsumer.consume
      dsimp only
      split
      · exact hW.ret _
      · refine hW.bind (hcall _) fun n => ?_
        split
        · exact hW.ret _
        · exact hW.err _
    unfold Transfer.loop
    split
    · exact hW.ret _
    · refine hW.bind hconsume fun x => ?_
      dsimp only
      split
      · exact hW.ret _
      · split
        · exact hW.err _
        · split
          · exact hW.err _
          · exact loop_of_panics hvectored start fuel _ _ _

end Panics

/-- A request whose reader or writer is one of the server's. -/
def Request.OverChain : Request → Prop
  | .file (.read _ _ w _ _) => ∃ c : DescriptorChainConsumer, w = c.zcWriter
  | .file (.write _ _ r _ _ _ _ _) => ∃ c : DescriptorChainConsumer, r = c.zcReader
  | _ => True

end Virtiofsd
