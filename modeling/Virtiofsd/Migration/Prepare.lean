/-
  # Preparing a migration (`device_state/preserialization/`)

  Before the inodes can be sent, each needs a migration info: a path (`find-paths`) or a file
  handle (`file-handles`).  A background thread collects them while the guest keeps sending
  requests.  For paths it first asks `/proc/self/fd` (`proc_paths.rs`), and where that does
  not help walks through the shared directory (`find_paths.rs`).  At the end all paths are
  checked once more.

  The loops of the source end when the store or the directory is exhausted, or when the
  frontend cancels them.  Here each also stops, as if it were cancelled, when its fuel is
  used up; what holds for every fuel holds for every finite part of a run of the source.
-/
import Virtiofsd.Passthrough.Lookup

namespace Virtiofsd

open Lib

/-! ## 1. Checking a path -/

/-- `SerializableFileHandle::require_equal_without_mount_id`. -/
def SerializableFileHandle.requireEqualWithoutMountId (h other : SerializableFileHandle) :
    Except String Unit :=
  if h.handleType ≠ other.handleType then .error "File handle type differs"
  else if h.handle ≠ other.handle then .error "File handle differs"
  else .ok ()

/-- The handle `check_presence` compares with: the one in the info, or one made now. -/
def expectedHandle (d : InodeData) (info : InodeMigrationInfo) :
    NeutralM (Option SerializableFileHandle) := do
  match info.fileHandle with
  | some fh => return some fh
  | none =>
    match ← d.fileOrHandle.toSerializable.attempt with
    | .ok fh => return some fh
    | .error _ => return none

/-- **`InodePath::check_presence`.** -/
def checkPresence (parent : InodeData) (filename : Name) (d : InodeData)
    (info : InodeMigrationInfo) : NeutralM Unit := do
  if 0 ∈ filename then .err (.custom .invalidInput "nul byte found in provided data")
  let parentFd ← parent.getFile
  let st ← statx parentFd (some filename)
  if st.st.dev ≠ d.ids.dev then .err (.other "Device ID differs")
  match ← expectedHandle d info with
  | some fh =>
    let actual ← errContext (do errno (← host (.nameToHandle parentFd (some filename))))
      "Failed to generate file handle"
    match fh.requireEqualWithoutMountId actual.toSerializable with
    | .ok () => return ()
    | .error msg => .err (.other msg)
  | none =>
    if st.st.ino ≠ d.ids.ino then .err (.other "Inode ID differs")

/-- `InodeMigrationInfo::check_path_presence`. -/
def InodeMigrationInfo.checkPathPresence (info : InodeMigrationInfo) (d : InodeData) :
    NeutralM Unit :=
  match info.location with
  | .rootNode => return ()
  | .path parent filename => checkPresence parent.data filename d info
  | .fileHandle _ => return ()

/-! ## 2. Walking over the inode store (`proc_paths.rs`) -/

namespace ProcPaths

/-- `Mode`. -/
inductive Mode where
  | constructor
  | confirmPaths
  | implicitPathCheck
  deriving DecidableEq

/-- Check a path under the lock; one that is wrong is dropped. -/
def recheck (r : InodeRef) (info : InodeMigrationInfo) : FsM Bool := do
  match ← (info.checkPathPresence r.data).attempt with
  | .ok () => return false
  | .error _ =>
    setInfo r none
    return true

/-- **`Walker::should_update_inode`.** -/
def shouldUpdateInode (mode : Mode) (r : InodeRef) : FsM Bool := do
  query (.lockInfo r)
  let info ← query (.readInfo r)
  let update ← match mode, info with
    | .implicitPathCheck, none => pure false
    | .constructor, some _ => pure false
    | .confirmPaths, none => pure true
    | .constructor, none => pure true
    | .confirmPaths, some info => recheck r info
    | .implicitPathCheck, some info => recheck r info
  query (.unlockInfo r)
  return update

/-- Whether the walk is cancelled; `ConfirmPaths` cannot be. -/
def isCancelled : Mode → NeutralM Bool
  | .constructor => host .cancelled
  | .confirmPaths => return false
  | .implicitPathCheck => host .cancelled

/-- The loop of `Walker::run` over the inodes after `last`. -/
def walk (cfg : Config) (mode : Mode) (sharedDirPath : Name) :
    Nat → Option Inode → FsM (Except WrappedError Unit)
  | 0, _ => return .ok ()
  | fuel + 1, last => do
    match ← query (.nextAfter last) with
    | none => return .ok ()
    | some r =>
      if ← isCancelled mode then return .ok ()
      let update ← shouldUpdateInode mode r
      if !update then walk cfg mode sharedDirPath fuel (some r.data.inode)
      else
        match mode, ← setPathMigrationInfoFromProcSelfFd cfg r.data sharedDirPath with
        | .constructor, .error (.fallback err) => return .error (.fallback err)
        | _, _ => walk cfg mode sharedDirPath fuel (some r.data.inode)

/-- **`Walker::run`.** -/
def run (cfg : Config) (mode : Mode) (fuel : Nat) : FsM (Except WrappedError Unit) := do
  match ← query (.get ROOT_ID) with
  | none =>
    let empty : Bool ← query .storeIsEmpty
    if empty then return .ok ()
    else return .error (.unrecoverable (.other "Root node not found"))
  | some root =>
    match ← root.data.getPath with
    | .error err =>
      return .error (.fallback (err.toIoError.context "Failed to get shared directory's path"))
    | .ok sharedDirPath => walk cfg mode sharedDirPath fuel none

/-- `proc_paths::Constructor::execute`: whether to fall back to `find_paths`. -/
def construct (cfg : Config) (fuel : Nat) : FsM Bool := do
  match ← run cfg .constructor fuel with
  | .ok () => return false
  | .error (.fallback _) => return true
  | .error (.unrecoverable _) => return false

/-- `ConfirmPaths::confirm_paths`. -/
def confirmPaths (cfg : Config) (fuel : Nat) : FsM Unit := do
  match ← run cfg .confirmPaths fuel with
  | .ok () => return ()
  | .error err => .err err.intoInner

/-- `ImplicitPathCheck::check_paths`. -/
def checkPaths (cfg : Config) (fuel : Nat) : FsM Unit := do
  let _ ← run cfg .implicitPathCheck fuel
  return ()

end ProcPaths

/-! ## 3. Walking through the shared directory (`find_paths.rs`) -/

namespace FindPaths

/-- What `discover` learns about a directory entry on the host. -/
def openEntry (cfg : Config) (dirfd : Fd) (name : Name) :
    NeutralM (Fd × StatExt × Option FileHandle) := do
  let pathFd ← openRelativeTo dirfd name O_PATH none
  let st ← statx pathFd none
  return (pathFd, st, ← getFileHandleOpt cfg pathFd st)

/-- The reference handle of an inode that was found under its name. -/
def entryHandle (cfg : Config) (pathFd : Fd) (handle : Option FileHandle) :
    NeutralM (Option SerializableFileHandle) := do
  if !cfg.migrationVerifyHandles then return none
  match handle with
  | some h => return some h.toSerializable
  | none => return some (← errno (← host (.nameToHandle pathFd none))).toSerializable

/-- `InodeMigrationInfo::new_internal` with a path: the clone of the parent's reference is
dropped when there is no reference handle. -/
def newPath (parentRef : InodeRef) (name : Name)
    (handle : NeutralM (Option SerializableFileHandle)) : FsM InodeMigrationInfo := do
  let parent ← StrongInodeReference.clone parentRef
  let fileHandle ← Prog.onErr handle (StrongInodeReference.drop parent)
  return ⟨.path parent name, fileHandle⟩

/-- The part of `discover` for an inode that is in the store. -/
def discoverKnown (cfg : Config) (parentRef : InodeRef) (name : Name) (pathFd : Fd)
    (st : StatExt) (handle : Option FileHandle) (inode : InodeRef) :
    FsM (Option InodeRef) := do
  let info ← Prog.onErr (newPath parentRef name (entryHandle cfg pathFd handle))
    (StrongInodeReference.drop inode)
  setInfo inode (some info)
  if fileType st.st.mode = S_IFDIR then return some inode
  else
    StrongInodeReference.drop inode
    return none

/-- The part of `discover` for a directory that is not: it has to be, to go on from. -/
def discoverDirectory (cfg : Config) (parentRef : InodeRef) (name : Name) (pathFd : Fd)
    (st : StatExt) (handle : Option FileHandle) : FsM InodeRef := do
  let fileOrHandle ← newFileOrHandle cfg pathFd handle
  let info ← Prog.onErr (newPath parentRef name (verifyHandle cfg fileOrHandle))
    (dropFile fileOrHandle)
  let inode ← query .fetchAddInode
  getOrInsert ⟨inode, fileOrHandle, st.ids, st.st.mode⟩ (some info)

/-- **`Constructor::discover`.** -/
def discover (cfg : Config) (parentRef : InodeRef) (dirfd : Fd) (name : Name) :
    FsM (Option InodeRef) :=
  if !isUtf8 name then .err (.other "Cannot convert filename into UTF-8")
  else if name = [0x2e] ∨ name = [0x2e, 0x2e] then return none
  else do
    let (pathFd, st, handle) ← openEntry cfg dirfd name
    match ← claimInode handle st.ids with
    | some inode => discoverKnown cfg parentRef name pathFd st handle inode
    | none =>
      if fileType st.st.mode = S_IFDIR then
        return some (← discoverDirectory cfg parentRef name pathFd st handle)
      else return none

/-- The entries of one read of a directory: the directories among them are put on the stack.
Returns whether the walk was cancelled. -/
def discoverEntries (cfg : Config) (dir : InodeRef) (dirfd : Fd) :
    List LinuxDirent → List InodeRef → FsM (Bool × List InodeRef)
  | [], remaining => return (false, remaining)
  | entry :: entries, remaining => do
    let cancelled : Bool ← host .cancelled
    if cancelled then return (true, remaining)
    match ← (discover cfg dir dirfd entry.name).attempt with
    | .ok (some inode) => discoverEntries cfg dir dirfd entries (inode :: remaining)
    | .ok none => discoverEntries cfg dir dirfd entries remaining
    | .error _ => discoverEntries cfg dir dirfd entries remaining

/-- All reads of a directory. -/
def readEntries (cfg : Config) (dir : InodeRef) (dirfd : Fd) :
    Nat → List InodeRef → FsM (Bool × List InodeRef)
  | 0, remaining => return (true, remaining)
  | fuel + 1, remaining => do
    match ← host (.getdents dirfd none 1024) with
    | .error _ => return (false, remaining)
    | .ok [] => return (false, remaining)
    | .ok entries =>
      let (cancelled, remaining) ← discoverEntries cfg dir dirfd entries remaining
      if cancelled then return (true, remaining)
      else readEntries cfg dir dirfd fuel remaining

/-- The `Drop` of a `Vec<StrongInodeReference>`. -/
def dropAll : List InodeRef → FsM Unit
  | [] => return ()
  | r :: rs => do
    StrongInodeReference.drop r
    dropAll rs

/-- **`Constructor::recurse_from`**, with the stack of directories still to visit. -/
def recurseFrom (cfg : Config) : Nat → List InodeRef → FsM Unit
  | 0, remaining => dropAll remaining.reverse
  | _ + 1, [] => return ()
  | fuel + 1, dir :: remaining => do
    match ← (dir.data.openFile (O_RDONLY ||| O_NOFOLLOW ||| O_CLOEXEC)).attempt with
    | .error _ =>
      StrongInodeReference.drop dir
      recurseFrom cfg fuel remaining
    | .ok dirfd =>
      let (cancelled, remaining) ← readEntries cfg dir dirfd fuel remaining
      StrongInodeReference.drop dir
      if cancelled then dropAll remaining.reverse
      else recurseFrom cfg fuel remaining

/-- **`find_paths::Constructor::execute`.** -/
def construct (cfg : Config) (fuel : Nat) : FsM Unit := do
  match ← (StrongInodeReference.new ROOT_ID).attempt with
  | .ok root => recurseFrom cfg fuel [root]
  | .error _ => return ()

end FindPaths

/-! ## 4. Collecting file handles (`file_handles.rs`) -/

namespace FileHandles

/-- The file handle of an inode. -/
def inodeHandle (d : InodeData) : NeutralM SerializableFileHandle :=
  match d.fileOrHandle with
  | .file fd => errContext (do return (← errno (← host (.nameToHandle fd none))).toSerializable)
      "Failed to generate file handle"
  | .handle h => return h.toSerializable
  | .invalid err => .err (invalidInode err)

/-- `Constructor::set_migration_info`. -/
def setMigrationInfo (cfg : Config) (r : InodeRef) : FsM Unit := do
  let handle ← inodeHandle r.data
  setInfo r (some ⟨.fileHandle handle, if cfg.migrationVerifyHandles then some handle else none⟩)

/-- The loop of `Constructor::execute` over the inodes after `last`. -/
def collect (cfg : Config) : Nat → Option Inode → FsM Unit
  | 0, _ => return ()
  | fuel + 1, last => do
    match ← query (.nextAfter last) with
    | none => return ()
    | some r =>
      let cancelled : Bool ← host .cancelled
      if cancelled then return ()
      query (.lockInfo r)
      let info ← query (.readInfo r)
      query (.unlockInfo r)
      if info.isNone then
        let _ ← (setMigrationInfo cfg r).attempt
      collect cfg fuel (some r.data.inode)

end FileHandles

/-! ## 5. The whole preparation -/

/-- **`prepare_serialization`.** -/
def prepareSerialization (cfg : Config) (fuel : Nat) : FsM Unit := do
  refAct .clearMigrationInfo
  query (.store .trackMigrationInfo true)
  match cfg.migrationMode with
  | .findPaths =>
    let fallBack : Bool ← ProcPaths.construct cfg fuel
    if fallBack then FindPaths.construct cfg fuel
  | .fileHandles => FileHandles.collect cfg fuel none
  ProcPaths.checkPaths cfg fuel

/-- **`serialize`**, as far as it touches the infos: tracking ends, the paths are confirmed if
that is configured, and after the state is read (`Migration/Serialize.lean`) they are
cleared. -/
def serialize (cfg : Config) (fuel : Nat) : FsM Unit := do
  query (.store .trackMigrationInfo false)
  if cfg.migrationConfirmPaths then
    Prog.onErr (ProcPaths.confirmPaths cfg fuel) (refAct .clearMigrationInfo)
  refAct .clearMigrationInfo

end Virtiofsd
