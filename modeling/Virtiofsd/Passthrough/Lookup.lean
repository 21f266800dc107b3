/-
  # Looking up inodes, and keeping track of their paths (`passthrough/mod.rs`)

  `do_lookup` is where the guest gets its references: it finds the inode in the store or
  inserts a new one, and LEAKS the strong reference it then has to the guest.  While a
  migration is prepared it also records under which name in which parent the inode was
  found.  The functions around it keep these records up to date when names change:
  `update_inode_migration_info` after a rename, `before_invalidating_path` and
  `after_invalidating_path` around whatever removes or replaces a name.

  A `StrongInodeReference` that goes out of scope is dropped where Rust drops it: at the end
  of the block, and on every early return.
-/
import Virtiofsd.Passthrough.Actions

namespace Virtiofsd

open Lib

/-! ## 1. Attributes and entries -/

/-- `fuse::Attr`. -/
structure Attr where
  ino : Nat
  size : Nat
  blocks : Nat
  atime : Nat
  mtime : Nat
  ctime : Nat
  atimensec : Nat
  mtimensec : Nat
  ctimensec : Nat
  mode : Nat
  nlink : Nat
  uid : UInt32
  gid : UInt32
  rdev : Nat
  blksize : Nat
  flags : UInt32
  deriving DecidableEq

/-- `filesystem::Entry`: what the guest learns about a name, and one reference to its inode. -/
structure Entry where
  inode : Inode
  generation : Nat
  attr : Attr
  attrTimeout : Nat
  entryTimeout : Nat
  deriving DecidableEq

/-- `fuse::ATTR_SUBMOUNT`. -/
def ATTR_SUBMOUNT : UInt32 := 1

/-- `Attr::try_with_flags`. -/
def Attr.tryWithFlags (cfg : Config) (st : Stat) (flags : UInt32) : Except IoError Attr := do
  let uid ← cfg.uidMap.mapHost st.uid
  let gid ← cfg.gidMap.mapHost st.gid
  return {
    ino := st.ino, size := st.size, blocks := st.blocks
    atime := st.atime, mtime := st.mtime, ctime := st.ctime
    atimensec := st.atimeNsec, mtimensec := st.mtimeNsec, ctimensec := st.ctimeNsec
    mode := st.mode, nlink := st.nlink, uid := uid, gid := gid
    rdev := st.rdev, blksize := st.blksize, flags := flags }

def S_IFMT : Nat := 0o170000
def S_IFDIR : Nat := 0o040000
def S_IFREG : Nat := 0o100000

/-- The file type in a mode. -/
def fileType (mode : Nat) : Nat := mode &&& S_IFMT

/-- `util::is_safe_inode`. -/
def isSafeInode (mode : Nat) : Bool := fileType mode == S_IFREG || fileType mode == S_IFDIR

/-! ## 2. Files and handles of an inode -/

/-- The error every request on an inode gets that a migration could not restore. -/
def invalidInode (err : IoError) : IoError :=
  err.context "Inode is invalid because of an error during the preceding migration"

/-- `InodeData::get_file`. -/
def InodeData.getFile (d : InodeData) : NeutralM Fd :=
  match d.fileOrHandle with
  | .file fd => return fd
  | .handle h => do errno (← host (.openByHandle h O_PATH))
  | .invalid e => .err (invalidInode e)

/-- `InodeData::open_file`. -/
def InodeData.openFile (d : InodeData) (flags : UInt32) : NeutralM Fd :=
  match d.fileOrHandle with
  | .file fd => do
    if !isSafeInode d.mode then .err .ebadf
    errno (← host (.reopen fd flags))
  | .handle h => do
    if !isSafeInode d.mode then .err .ebadf
    errno (← host (.openByHandle h flags))
  | .invalid e => .err (invalidInode e)

/-- `InodePathError`. -/
inductive InodePathError where
  | noFd (err : IoError)
  | fdPathError (err : FdPathError)
  | outsideRoot

/-- `From<InodePathError> for io::Error`. -/
def InodePathError.toIoError : InodePathError → IoError
  | .noFd err => err
  | .fdPathError (.readLink err) => err.context "readlink"
  | .fdPathError .tooLong => .other "Path returned from readlink is too long"
  | .fdPathError (.invalidCString err) => err.context "readlink returned invalid path"
  | .fdPathError .notAFile => .other "Not a file"
  | .fdPathError .deleted => .other "Inode deleted"
  | .outsideRoot =>
    .other "Got empty path for non-root node, so it is outside the shared directory"

/-- `InodeData::get_path`: only the root can have the path `/`. -/
def InodeData.getPath (d : InodeData) : NeutralM (Except InodePathError Name) := do
  match ← d.getFile.attempt with
  | .error err => return .error (.noFd err)
  | .ok fd =>
    match ← host (.getPath fd) with
    | .error err => return .error (.fdPathError err)
    | .ok path =>
      if path = [0x2f] ∧ d.inode ≠ ROOT_ID then return .error .outsideRoot
      else return .ok path

/-- `err_context`. -/
def errContext {α : Type} (p : NeutralM α) (msg : String) : NeutralM α := do
  match ← p.attempt with
  | .ok a => return a
  | .error e => .err (e.context msg)

/-- `TryFrom<&FileOrHandle> for SerializableFileHandle`. -/
def FileOrHandle.toSerializable : FileOrHandle → NeutralM SerializableFileHandle
  | .handle h => return h.toSerializable
  | .file fd => do return (← errno (← host (.nameToHandle fd none))).toSerializable
  | .invalid err => .err (err.context "invalid")

/-- `open_relative_to`. -/
def openRelativeTo (dir : Fd) (name : Name) (flags : UInt32) (mode : Option UInt32) :
    NeutralM Fd := do
  errno (← host (.openat dir name (O_NOFOLLOW ||| O_CLOEXEC ||| flags) mode))

/-- `statx`. -/
def statx (fd : Fd) (name : Option Name) : NeutralM StatExt := do
  Prog.ofExcept (← host (.statx fd name))

/-- `get_file_handle_opt`. -/
def getFileHandleOpt (cfg : Config) (fd : Fd) (st : StatExt) : NeutralM (Option FileHandle) := do
  if cfg.inodeFileHandles = .never then return none
  match ← host (.nameToHandle fd none) with
  | .ok fh => return some fh
  | .error e =>
    if e ≠ EOPNOTSUPP ∧ e ≠ EOVERFLOW then .err (.os e)
    -- the error text names the mount
    if 0 < st.mntId ∧ !cfg.mountFds then .panic .mountFdsUnwrap
    if cfg.inodeFileHandles = .mandatory then .err (.os EOPNOTSUPP)
    return none

/-- `make_file_handle_openable`. -/
def makeFileHandleOpenable (cfg : Config) (fh : FileHandle) : NeutralM Unit := do
  if !cfg.mountFds then .panic .mountFdsUnwrap
  Prog.ofExcept (← host (.mountFd fh.mntId))

/-! ## 3. Strong references -/

namespace StrongInodeReference

/-- `new_with_data`. -/
def newWithData (r : InodeRef) : FsM InodeRef := do
  let incremented : Bool ← refAct (.increment r)
  if incremented then return r
  else .err (.custom .notFound
    s!"Cannot take strong reference to inode {r.data.inode}: Is already deleted")

/-- `new`, or `InodeStore::get_strong`. -/
def new (inode : Inode) : FsM InodeRef := do
  match ← query (.get inode) with
  | some r => newWithData r
  | none => .err (.custom .notFound s!"Cannot take strong reference to inode {inode}: Not found")

/-- `clone`. -/
def clone (r : InodeRef) : FsM InodeRef := do
  let incremented : Bool ← refAct (.increment r)
  if incremented then return r else .panic .strongReferenceClone

/-- `leak`. -/
def leak (r : InodeRef) : FsM Inode := do
  refAct (.leak r)
  return r.data.inode

/-- `Drop`. -/
def drop (r : InodeRef) : FsM Unit := refAct (.dropRef r)

/-- The end of the scope of a reference there may be. -/
def dropOpt : Option InodeRef → FsM Unit
  | some r => drop r
  | none => return ()

end StrongInodeReference

/-- Dropping a migration info drops the strong reference in it. -/
def dropInfo (info : Option InodeMigrationInfo) : FsM Unit :=
  StrongInodeReference.dropOpt (infoParent info)

/-- `*inode.migration_info.lock() = info`: the old one is dropped. -/
def setInfo (r : InodeRef) (info : Option InodeMigrationInfo) : FsM Unit := do
  dropInfo (← refAct (.exchangeInfo r info))

/-- `CStr::to_str`. -/
def isUtf8 (name : Name) : Bool := ByteArray.validateUTF8 ⟨name.toArray⟩

/-- `InodeMigrationInfo::new_internal`: the file handle to verify the inode with. -/
def verifyHandle (cfg : Config) (fileOrHandle : FileOrHandle) :
    NeutralM (Option SerializableFileHandle) :=
  if cfg.migrationVerifyHandles then some <$> fileOrHandle.toSerializable else return none

/-- **`InodeMigrationInfo::new`.**  The reference to the parent becomes part of a path, or
is dropped. -/
def InodeMigrationInfo.new (cfg : Config) (parentRef : InodeRef) (filename : Name)
    (fileOrHandle : FileOrHandle) : FsM InodeMigrationInfo :=
  match cfg.migrationMode with
  | .findPaths => do
    let check : NeutralM (Option SerializableFileHandle) := do
      if !isUtf8 filename then .err (.other "Cannot convert filename into UTF-8")
      verifyHandle cfg fileOrHandle
    let fileHandle ← Prog.onErr check (StrongInodeReference.drop parentRef)
    return ⟨.path parentRef filename, fileHandle⟩
  | .fileHandles => do
    let handles : NeutralM (SerializableFileHandle × Option SerializableFileHandle) := do
      let handle ← errContext fileOrHandle.toSerializable "Failed to generate file handle"
      return (handle, ← verifyHandle cfg fileOrHandle)
    let (handle, fileHandle) ← Prog.ensuring handles (StrongInodeReference.drop parentRef)
    return ⟨.fileHandle handle, fileHandle⟩

/-! ## 4. Lookups -/

/-- What `do_claim_inode` finds, as an `Option`. -/
def claimInode (handle : Option FileHandle) (ids : InodeIds) : FsM (Option InodeRef) := do
  match ← refAct (.claim handle ids) with
  | InodeStoreInner.Claim.found r => return some r
  | InodeStoreInner.Claim.notFound => return none
  | InodeStoreInner.Claim.dangling => .panic .indexUnwrap

/-- The ids in a stat. -/
def StatExt.ids (st : StatExt) : InodeIds := ⟨st.st.ino, st.st.dev, st.mntId⟩

/-- What `try_lookup_implementation` learns about a name on the host. -/
def openName (cfg : Config) (parent : InodeData) (name : Name) :
    NeutralM (Fd × StatExt × Option FileHandle) := do
  let pFile ← parent.getFile
  let pathFd ← openRelativeTo pFile name O_PATH none
  let st ← statx pathFd none
  let handle ← getFileHandleOpt cfg pathFd st
  return (pathFd, st, handle)

/-- **`try_lookup_implementation`.** -/
def tryLookupImplementation (cfg : Config) (parent : InodeData) (name : Name) :
    FsM (Option InodeRef × Fd × StatExt × Option FileHandle) := do
  let (pathFd, st, handle) ← openName cfg parent name
  return (← claimInode handle st.ids, pathFd, st, handle)

/-- `try_lookup`. -/
def tryLookup (cfg : Config) (parent : InodeData) (name : Name) : FsM (Option InodeRef) := do
  return (← tryLookupImplementation cfg parent name).1

/-- `GuestFdSemaphore::allocate`. -/
def allocateFd : NeutralM Unit := do
  if !(← query .allocateFd) then .err (.os ENFILE)

/-- The `Drop` of a `GuestFile`, if that is what it is. -/
def dropFile : FileOrHandle → NeutralM Unit
  | .file _ => query .releaseFd
  | _ => return ()

/-- The file or handle of a new inode. -/
def newFileOrHandle (cfg : Config) (pathFd : Fd) : Option FileHandle → NeutralM FileOrHandle
  | some h => do
    makeFileHandleOpenable cfg h
    return .handle h
  | none => do
    allocateFd
    return .file pathFd

/-- The migration info of a new inode: where it was found, while that is tracked. -/
def newMigrationInfo (cfg : Config) (p : InodeRef) (name : Name) (fileOrHandle : FileOrHandle) :
    FsM (Option InodeMigrationInfo) := do
  let track : Bool ← query (.load .trackMigrationInfo)
  if track then
    let parentStrongRef ← StrongInodeReference.newWithData p
    return some (← InodeMigrationInfo.new cfg parentStrongRef name fileOrHandle)
  else return none

/-- `InodeStore::get_or_insert`: an `InodeData` that is not inserted is dropped. -/
def getOrInsert (data : InodeData) (info : Option InodeMigrationInfo) : FsM InodeRef := do
  match ← refAct (.getOrInsert data info) with
  | InodeStoreInner.Insertion.inserted r => return r
  | InodeStoreInner.Insertion.found r =>
    dropFile data.fileOrHandle
    dropInfo info
    return r
  | InodeStoreInner.Insertion.doubleUse =>
    dropFile data.fileOrHandle
    dropInfo info
    .err (.other s!"Double-use of FUSE inode ID {data.inode}")
  | InodeStoreInner.Insertion.dangling => .panic .indexUnwrap

/-- The part of `do_lookup` for a name whose inode is not in the store. -/
def insertInode (cfg : Config) (p : InodeRef) (name : Name) (pathFd : Fd) (st : StatExt)
    (handle : Option FileHandle) : FsM InodeRef := do
  let fileOrHandle ← newFileOrHandle cfg pathFd handle
  let migInfo ← Prog.onErr (newMigrationInfo cfg p name fileOrHandle) (dropFile fileOrHandle)
  let inode ← query .fetchAddInode
  getOrInsert ⟨inode, fileOrHandle, st.ids, st.st.mode⟩ migInfo

/-- Whether a directory is announced as the root of another mount. -/
def attrFlags (p : InodeData) (st : StatExt) (announceSubmounts : Bool) : UInt32 :=
  if fileType st.st.mode = S_IFDIR ∧ announceSubmounts ∧
      (st.st.dev ≠ p.ids.dev ∨ st.mntId ≠ p.ids.mntId) then ATTR_SUBMOUNT
  else 0

/-- **`do_lookup`.** -/
def doLookup (cfg : Config) (parent : Inode) (name : Name) : FsM Entry := do
  let some p ← query (.get parent) | .err .ebadf
  let (existingInode, pathFd, st, handle) ← tryLookupImplementation cfg p.data name
  let announce ← query (.load .announceSubmounts)
  let inode ← match existingInode with
    | some inode => pure inode
    | none => insertInode cfg p name pathFd st handle
  match Attr.tryWithFlags cfg st.st (attrFlags p.data st announce) with
  | .error e =>
    StrongInodeReference.drop inode
    .err e
  | .ok attr =>
    let inodeId ← StrongInodeReference.leak inode
    query (.dentry (.insert parent name inodeId))
    return ⟨inodeId, 0, attr, cfg.attrTimeout, cfg.entryTimeout⟩

/-! ## 5. Paths from `/proc/self/fd` -/

/-- `WrappedError`: whether another way to find the inode may still succeed. -/
inductive WrappedError where
  | fallback (err : IoError)
  | unrecoverable (err : IoError)
  deriving DecidableEq

/-- `WrappedError::into_inner`. -/
def WrappedError.intoInner : WrappedError → IoError
  | .fallback e => e
  | .unrecoverable e => e

/-- `fallback` or `unrecoverable`. -/
def WrappedError.of (fallBack : Bool) (e : IoError) : WrappedError :=
  if fallBack then .fallback e else .unrecoverable e

/-- `link_count`, compared with a bound; `false` when it is not available. -/
def linkCountAbove (d : InodeData) (bound : Nat) : NeutralM Bool := do
  match ← d.getFile.attempt with
  | .error _ => return false
  | .ok fd =>
    match ← host (.statx fd none) with
    | .error _ => return false
    | .ok st => return decide (bound < st.st.nlink)

/-- `util::relative_path`: `none` for a path outside the directory. -/
def relativePath (path dir : Name) : Option Name :=
  if dir.isPrefixOf path then some ((path.drop dir.length).dropWhile (· = 0x2f)) else none

/-- The elements `Path` iterates over: empty ones are skipped, and `.` unless it is first. -/
def pathElements (path : Name) : List Name :=
  match path.splitOn 0x2f with
  | [] => []
  | first :: rest =>
    (if first = [] then [] else [first]) ++ rest.filter fun e => e ≠ [] ∧ e ≠ [0x2e]

/-- The relative path `/proc/self/fd` has for an inode. -/
def procRelativePath (d : InodeData) (sharedDirPath : Name) :
    NeutralM (Except WrappedError Name) := do
  match ← d.getPath with
  | .error err =>
    let fallBack ← match err with
      | .fdPathError .deleted => linkCountAbove d 0
      | .outsideRoot => linkCountAbove d 1
      | .noFd _ => pure false
      | .fdPathError _ => pure true
    return .error (.of fallBack (err.toIoError.context "Failed to get path from /proc/self/fd"))
  | .ok absPath =>
    match relativePath absPath sharedDirPath with
    | none =>
      let fallBack ← linkCountAbove d 1
      return .error (.of fallBack (.other "Path is outside the directory"))
    | some relPath =>
      if isUtf8 relPath then return .ok relPath
      else return .error (.unrecoverable (.other "Path is not a UTF-8 string"))

/-- `InodeMigrationInfo::new` under the lock of `entry`, if it has no info yet.  Returns
whether `parent` has become part of it. -/
def setPathIfNone (cfg : Config) (parent entry : InodeRef) (element : Name) : FsM Bool := do
  query (.lockInfo entry)
  match ← query (.readInfo entry) with
  | some _ =>
    query (.unlockInfo entry)
    return false
  | none =>
    match ← (InodeMigrationInfo.new cfg parent element entry.data.fileOrHandle).attempt with
    | .error e =>
      query (.unlockInfo entry)
      .err e
    | .ok info =>
      setInfo entry (some info)
      query (.unlockInfo entry)
      return true

/-- One element of the path: look it up, and give it a migration info if it has none. -/
def followElement (cfg : Config) (parent : InodeRef) (element : Name) : FsM InodeRef := do
  let entry ← Prog.onErr (doLookup cfg parent.data.inode element)
    (StrongInodeReference.drop parent)
  match ← refAct (.adopt entry.inode) with
  | none => .panic .entryInodeUnwrap
  | some entryInode =>
    let moved ← Prog.onErr (setPathIfNone cfg parent entryInode element)
      (StrongInodeReference.drop entryInode)
    if !moved then StrongInodeReference.drop parent
    return entryInode

/-- The loop over the elements of the path. -/
def followPath (cfg : Config) : List Name → InodeRef → FsM InodeRef
  | [], parent => return parent
  | element :: rest, parent => do
    let entry ← followElement cfg parent element
    followPath cfg rest entry

/-- **`set_path_migration_info_from_proc_self_fd`.** -/
def setPathMigrationInfoFromProcSelfFd (cfg : Config) (inode : InodeData)
    (sharedDirPath : Name) : FsM (Except WrappedError Unit) := do
  match ← procRelativePath inode sharedDirPath with
  | .error err => return .error err
  | .ok relPath =>
    match ← (StrongInodeReference.new ROOT_ID).attempt with
    | .error e => return .error (.unrecoverable e)
    | .ok root =>
      match ← (followPath cfg (pathElements relPath) root).attempt with
      | .error e => return .error (.unrecoverable e)
      | .ok last =>
        StrongInodeReference.drop last
        if last.data.inode = inode.inode then return .ok ()
        else return .error (.fallback
          (.other "Inode not found under path reported by /proc/self/fd"))

/-! ## 6. Keeping paths up to date -/

/-- **`update_inode_migration_info`.** -/
def updateInodeMigrationInfo (cfg : Config) (parent : InodeRef) (filename : Name) :
    FsM Unit := do
  let track : Bool ← query (.load .trackMigrationInfo)
  if !track then return ()
  match ← tryLookup cfg parent.data filename with
  | none => return ()
  | some inode =>
    let parentStrongRef ← Prog.onErr (StrongInodeReference.newWithData parent)
      (StrongInodeReference.drop inode)
    query (.lockInfo inode)
    let old ← refAct (.exchangeInfo inode none)
    if (old.elim true InodeMigrationInfo.hasPath) then
      dropInfo old
      let info ← (InodeMigrationInfo.new cfg parentStrongRef filename
        inode.data.fileOrHandle).attempt
      match info with
      | .error e =>
        query (.unlockInfo inode)
        StrongInodeReference.drop inode
        .err e
      | .ok info =>
        setInfo inode (some info)
        query (.unlockInfo inode)
        StrongInodeReference.drop inode
    else
      -- migration info that is not a path is kept
      setInfo inode old
      query (.unlockInfo inode)
      StrongInodeReference.drop parentStrongRef
      StrongInodeReference.drop inode

/-- **`before_invalidating_path`.** -/
def beforeInvalidatingPath (cfg : Config) (parent : InodeData) (filename : Name) :
    FsM (Option InodeRef) := do
  match ← (tryLookup cfg parent filename).attempt with
  | .ok inode => return inode
  | .error _ => return none

/-- `after_invalidating_path_refresh`. -/
def afterInvalidatingPathRefresh (cfg : Config) (inode : InodeData) : FsM Unit := do
  let some root ← query (.get ROOT_ID) | .err (.other "Shared directory root node not found")
  match ← root.data.getPath with
  | .error e => .err (e.toIoError.context "Failed to get shared directory root path")
  | .ok sharedDirPath =>
    match ← setPathMigrationInfoFromProcSelfFd cfg inode sharedDirPath with
    | .ok () => return ()
    | .error e => .err e.intoInner

/-- **`after_invalidating_path`.**  The old path, with its reference, lives until the end. -/
def afterInvalidatingPath (cfg : Config) (inode : InodeRef) : FsM Unit := do
  query (.lockInfo inode)
  match ← refAct (.exchangeInfo inode none) with
  | none => query (.unlockInfo inode)
  | some info =>
    if info.hasPath then
      query (.unlockInfo inode)
      match ← (afterInvalidatingPathRefresh cfg inode.data).attempt with
      | .ok () =>
        let _ ← query (.readInfo inode)
      | .error _ => pure ()
      dropInfo (some info)
    else
      setInfo inode (some info)
      query (.unlockInfo inode)
  StrongInodeReference.drop inode

/-- `after_invalidating_path` for what `before_invalidating_path` has found. -/
def afterInvalidating (cfg : Config) : Option InodeRef → FsM Unit
  | some inode => afterInvalidatingPath cfg inode
  | none => return ()

end Virtiofsd
