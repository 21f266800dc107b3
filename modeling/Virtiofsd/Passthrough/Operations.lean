/-
  # The requests of `PassthroughFs` (`impl FileSystem for PassthroughFs`)

  Every method of the trait, as a program over the actions.  Requests that touch no inode
  reference are programs over `NeutralAct`; those that do are the lookups, the forgets and
  everything that changes a name.

  A guard (credentials, umask, capability, working directory) is a scope: what its `Drop`
  does runs at the end of the block, on every early return too (`Prog.ensuring`).
-/
import Virtiofsd.Fuse
import Virtiofsd.Passthrough.Lookup

namespace Virtiofsd

open Lib Prog

/-! ## 1. What a request brings -/

/-- `filesystem::Context`. -/
structure Context where
  uid : UInt32
  gid : UInt32
  pid : UInt32
  deriving DecidableEq

/-- `SecContext`. -/
structure SecContext where
  name : Name
  secctx : List UInt8
  deriving DecidableEq

/-- `Extensions`. -/
structure Extensions where
  secctx : Option SecContext
  supGids : List UInt32
  deriving DecidableEq

/-- `OpenOptions`. -/
abbrev OpenOptions := UInt32

def OpenOptions.DIRECT_IO : OpenOptions := 1
def OpenOptions.KEEP_CACHE : OpenOptions := 2
def OpenOptions.CACHE_DIR : OpenOptions := 8

/-- The fields of `SetattrIn` that `setattr` reads. -/
structure SetattrIn where
  mode : UInt32
  uid : UInt32
  gid : UInt32
  size : Nat
  atime : Nat
  atimensec : Nat
  mtime : Nat
  mtimensec : Nat
  deriving DecidableEq

/-- `SetattrValid`. -/
structure SetattrValid where
  mode : Bool
  uid : Bool
  gid : Bool
  size : Bool
  atime : Bool
  mtime : Bool
  atimeNow : Bool
  mtimeNow : Bool
  killSuidgid : Bool
  deriving DecidableEq

/-- `GetxattrReply`, `ListxattrReply`. -/
inductive XattrReply where
  | value (bytes : List UInt8)
  | count (n : Nat)
  deriving DecidableEq

/-- `ZeroCopyWriter`: moves bytes from a file to the guest. -/
structure ZeroCopyWriter where
  readFromFileAt : Fd → Nat → Nat → NeutralM Nat

/-- `ZeroCopyReader`: moves bytes from the guest to a file. -/
structure ZeroCopyReader where
  writeToFileAt : Fd → Nat → Nat → Bool → NeutralM Nat

/-! ## 2. Guards -/

/-- `io::Error::last_os_error`. -/
def lastOsError : NeutralM IoError := do return .os (← host .lastOsError)

/-- A `libc` call and its result. -/
def libc (c : LibcCall) : NeutralM Bool := host (.libc c)

/-- A `libc` call whose failure is an error. -/
def libcOk (c : LibcCall) : NeutralM Unit := do
  if !(← libc c) then .err (← lastOsError)

/-- The `Drop` of `UnixCredentialsGuard`: failures are logged. -/
def dropCredentials (resetUid resetGid : Option UInt32) (dropSupGid : Bool) : NeutralM Unit := do
  if let some uid := resetUid then discard <| host (.seteffuid uid)
  if let some gid := resetGid then discard <| host (.seteffgid gid)
  if dropSupGid then discard <| host .dropsupgroups

/-- `UnixCredentials::set`; the result is what the guard does when it is dropped. -/
def setCredentials (uid gid : UInt32) (keepCapability : Bool) (supGids : List UInt32) :
    NeutralM (NeutralM Unit) := do
  let currentUid ← host .geteuid
  let currentGid ← host .getegid
  let changeUid := decide (uid ≠ 0 ∧ uid ≠ currentUid)
  let changeGid := decide (gid ≠ 0 ∧ gid ≠ currentGid)
  if !supGids.isEmpty then errno (← host (.setsupgroup supGids))
  if changeGid then errno (← host (.seteffgid gid))
  if changeUid then errno (← host (.seteffuid uid))
  if changeUid && keepCapability then discard <| host .addCapability
  if !changeUid && !changeGid then return pure ()
  return dropCredentials (if changeUid then some currentUid else none)
    (if changeGid then some currentGid else none) !supGids.isEmpty

/-- `unix_credentials_guard`. -/
def unixCredentialsGuard (cfg : Config) (ctx : Context) (extensions : Extensions) :
    NeutralM (NeutralM Unit) := do
  let hostUid ← ofExcept (cfg.uidMap.mapGuest ctx.uid)
  let hostGid ← ofExcept (cfg.gidMap.mapGuest ctx.gid)
  let suppGids ← ofExcept (extensions.supGids.mapM cfg.gidMap.mapGuest)
  let supGroupExtension : Bool ← query (.load .supGroupExtension)
  setCredentials hostUid hostGid (!supGroupExtension) suppGids

/-- The scope of the credentials guard and, with POSIX ACLs, of the guest's umask. -/
def withCredentials {α : Type} (cfg : Config) (ctx : Context) (extensions : Extensions)
    (umask : Option UInt32) (body : NeutralM α) : NeutralM α := do
  let dropGuard ← unixCredentialsGuard cfg ctx extensions
  let posixAcl : Bool ← query (.load .posixAcl)
  let inUmask : NeutralM α := match umask, posixAcl with
    | some umask, true => do
      let old ← host (.umask umask)
      ensuring body (discard <| host (.umask old))
    | _, _ => body
  ensuring inUmask dropGuard

/-- The scope of `drop_effective_cap("FSETID")`, whose guard panics if it cannot restore. -/
def withoutFsetid {α : Type} (drop : Bool) (body : NeutralM α) : NeutralM α := do
  if !drop then body
  else
    let dropped : Bool ← ofExcept (← host .dropCapability)
    ensuring body do
      if dropped then
        let restored : Bool ← host .restoreCapability
        if !restored then .panic .restoreCapability

/-- The scope of `switch_to_proc_self_fd`: both ways have to succeed. -/
def inProcSelfFd {α : Type} (body : NeutralM α) : NeutralM α := do
  match ← host (.fchdir false) with
  | .error _ => .panic .workingDirectory
  | .ok () =>
    ensuring body do
      match ← host (.fchdir true) with
      | .error _ => .panic .workingDirectory
      | .ok () => pure ()

namespace PassthroughFs

variable (cfg : Config)

/-! ## 3. Shared parts of requests -/

/-- `self.inodes.get(inode).ok_or_else(ebadf)?`. -/
def getInode (inode : Inode) : NeutralM InodeRef := do
  let some r ← query (.get inode) | .err .ebadf
  return r

/-- `find_handle(handle, inode)?` and `data.file.get()?`: the handle and its descriptor. -/
def findHandle (handle : Handle) (inode : Inode) : NeutralM (HandleData × Fd) := do
  let some data ← query (.findHandle handle inode) | .err .ebadf
  match data.file with
  | .ok fd => return (data, fd)
  | .error e =>
    .err (e.context "Handle is invalid because of an error during the preceding migration")

/-- The flags `open_inode` opens with: the kernel's writeback cache reads through files it
opened for writing, and appends itself. -/
def openInodeFlags (writeback : Bool) (flags : UInt32) : UInt32 :=
  let flags := if writeback ∧ flags &&& O_ACCMODE = O_WRONLY then
    (flags &&& ~~~O_ACCMODE) ||| O_RDWR else flags
  let flags := if writeback then flags &&& ~~~O_APPEND else flags
  let flags := if cfg.allowDirectIo then flags else flags &&& ~~~O_DIRECT
  flags ||| O_CLOEXEC

/-- `open_inode`. -/
def openInode (data : InodeData) (flags : UInt32) : NeutralM Fd := do
  let writeback : Bool ← query (.load .writeback)
  data.openFile (openInodeFlags cfg writeback flags)

/-- `guest_open_flags`. -/
def guestOpenFlags (flags : UInt32) : UInt32 := linuxToLinuxOpenFlags flags cfg.guestArch .host

/-- The names of the POSIX ACL attributes, "system.posix_acl_access" and
"system.posix_acl_default". -/
def aclAccess : Name := "system.posix_acl_access".toUTF8.toList
def aclDefault : Name := "system.posix_acl_default".toUTF8.toList

/-- `block_xattr`. -/
def blockXattr (name : Name) : NeutralM Bool := do
  let posixAcl : Bool ← query (.load .posixAcl)
  if posixAcl then return false
  return name.isPrefixOf aclAccess || name.isPrefixOf aclDefault

/-- `map_client_xattrname`. -/
def mapClientXattrname (name : Name) : NeutralM Name := do
  if ← blockXattr name then .err (.os EOPNOTSUPP)
  match cfg.xattrmap with
  | none => return name
  | some map =>
    match map.mapClientXattr name with
    | none => .panic .unterminatedMapping
    | some .deny => .err (.os EPERM)
    | some .unsupported => .err (.os EOPNOTSUPP)
    | some (.pass newName) => return newName

/-- The names `block_xattr` lets through. -/
def filterXattrs : List Name → NeutralM (List Name)
  | [] => return []
  | name :: names => do
    let blocked ← blockXattr name
    let rest ← filterXattrs names
    return if blocked then rest else name :: rest

/-- `map_server_xattrlist`. -/
def mapServerXattrlist (names : List UInt8) : NeutralM (List UInt8) := do
  let allXattrs ← match cfg.xattrmap with
    | none => pure names
    | some map =>
      match map.mapServerXattrlist names with
      | some mapped => pure mapped
      | none => .panic .unterminatedMapping
  return joinNames (← filterXattrs (splitNames allXattrs))

/-- `clear_file_capabilities`. -/
def clearFileCapabilities (fd : Fd) (type : Nat) (oPath : Bool) : NeutralM Unit := do
  match cfg.xattrSecurityCapability with
  | none => return ()
  | some xattrname =>
    if type ≠ S_IFREG then return ()
    let ok ← if oPath then inProcSelfFd (libc (.removexattr fd xattrname))
      else libc (.fremovexattr fd xattrname)
    if ok then return ()
    let e ← host .lastOsError
    if e = ENODATA ∨ e = EOPNOTSUPP then return ()
    .err (.os e)

/-- `clear_sgid`. -/
def clearSgid (fd : Fd) (oPath : Bool) : NeutralM Unit := do
  let st ← statx fd none
  errno (← host (.fchmodPath fd oPath (UInt32.ofNat (st.st.mode &&& 0o7777) &&& ~~~0o2000)))

/-- `HandleMigrationInfo::new`. -/
def handleMigrationFlags (flags : UInt32) : UInt32 := flags &&& ~~~(O_CREAT ||| O_EXCL ||| O_TRUNC)

/-! ## 4. Opening files -/

/-- The options of an open file, by cache policy. -/
def openOptions (flags : UInt32) : OpenOptions :=
  let dir := flags &&& O_DIRECTORY ≠ 0
  match cfg.cachePolicy with
  | .never => if dir then 0 else OpenOptions.DIRECT_IO
  | .metadata =>
    if dir then OpenOptions.CACHE_DIR ||| OpenOptions.KEEP_CACHE else OpenOptions.DIRECT_IO
  | .always =>
    if dir then OpenOptions.KEEP_CACHE ||| OpenOptions.CACHE_DIR else OpenOptions.KEEP_CACHE
  | .auto => 0

/-- Enter a file into the handle table. -/
def newHandle (inode : Inode) (fd : Fd) (type : Nat) (flags : UInt32) : NeutralM Handle := do
  let handle ← query .fetchAddHandle
  allocateFd
  query (.insertHandle handle ⟨inode, .ok fd, type, handleMigrationFlags flags⟩)
  return handle

/-- **`do_open`.** -/
def doOpen (inode : Inode) (killPriv : Bool) (flags : UInt32) :
    NeutralM (Option Handle × OpenOptions) := do
  let flags := flags &&& ~~~O_APPEND
  let flags := if cfg.cleanNoatime then flags &&& ~~~O_NOATIME else flags
  let data ← getInode inode
  let fd ← withoutFsetid (cfg.killprivV2 && killPriv) (openInode cfg data.data flags)
  if flags &&& O_TRUNC ≠ 0 then
    clearFileCapabilities cfg fd (fileType data.data.mode) false
  let handle ← newHandle inode fd (fileType data.data.mode) flags
  return (some handle, openOptions cfg flags)

/-- `open`. -/
def openFile (inode : Inode) (killPriv : Bool) (flags : UInt32) :
    NeutralM (Option Handle × OpenOptions) :=
  doOpen cfg inode killPriv (guestOpenFlags cfg flags)

/-- `opendir`. -/
def opendir (inode : Inode) (flags : UInt32) : NeutralM (Option Handle × OpenOptions) :=
  doOpen cfg inode false (guestOpenFlags cfg flags ||| O_DIRECTORY)

/-- `do_release`, for `release` and `releasedir`. -/
def doRelease (inode : Inode) (handle : Handle) : NeutralM Unit := do
  let removed : Bool ← query (.removeHandle handle inode)
  if !removed then .err .ebadf

/-! ## 5. References and names -/

/-- `lookup`. -/
def lookup (parent : Inode) (name : Name) : FsM Entry := doLookup cfg parent name

/-- `dentry_index_forget`, for inodes that are gone. -/
def forgetDentries : List Inode → NeutralM Unit
  | [] => return ()
  | inode :: inodes => do
    if (← query (.get inode)).isNone then query (.dentry (.forget inode))
    forgetDentries inodes

/-- **`forget`.** -/
def forget (inode : Inode) (count : Nat) : FsM Unit := do
  refAct (.forgetOne inode count)
  let hasIndex : Bool ← query .hasDentryIndex
  if hasIndex then forgetDentries [inode]

/-- **`batch_forget`.** -/
def batchForget (requests : List (Inode × Nat)) : FsM Unit := do
  let hasIndex : Bool ← query .hasDentryIndex
  refAct (.forgetMany requests)
  if hasIndex then forgetDentries (requests.map Prod.fst)

/-- What `mkdir`, `mknod`, `symlink`, `link`, `rename` and `unlink` do around the call that
changes a name: the inode that had the name before loses the path on record.  The error
number is asked for after that. -/
def changingName (parent : InodeData) (name : Name) (change : NeutralM Bool) : FsM Unit := do
  let invalidated ← beforeInvalidatingPath cfg parent name
  -- an early return inside the block drops the reference
  let ok ← onErr change (StrongInodeReference.dropOpt invalidated)
  afterInvalidating cfg invalidated
  if !ok then .err (← lastOsError)

/-- `do_mknod_mkdir_symlink_secctx`. -/
def doMknodMkdirSymlinkSecctx (parentFile : Fd) (name : Name) (secctx : SecContext) :
    NeutralM Unit := do
  let xattrName ← mapClientXattrname cfg secctx.name
  let pathFd ← openRelativeTo parentFile name O_PATH none
  inProcSelfFd (libcOk (.setxattr pathFd xattrName secctx.secctx 0))

/-- The part of `mkdir`, `mknod` and `symlink` after the new name exists: the security
context, and the name removed again if it cannot be set. -/
def labelNewName (parentFile : Fd) (name : Name) (extensions : Extensions) (removeFlags : Nat) :
    NeutralM Unit := do
  match extensions.secctx with
  | none => return ()
  | some secctx =>
    onErr (doMknodMkdirSymlinkSecctx cfg parentFile name secctx)
      (discard <| libc (.unlinkat parentFile name removeFlags))

/-- `libc::AT_REMOVEDIR`. -/
def AT_REMOVEDIR : Nat := 0x200

/-- `mkdir`. -/
def mkdir (ctx : Context) (parent : Inode) (name : Name) (mode umask : UInt32)
    (extensions : Extensions) : FsM Entry := do
  let data ← getInode parent
  let parentFile ← data.data.getFile
  changingName cfg data.data name
    (withCredentials cfg ctx extensions (some umask) (libc (.mkdirat parentFile name mode)))
  labelNewName cfg parentFile name extensions AT_REMOVEDIR
  doLookup cfg parent name

/-- `mknod`. -/
def mknod (ctx : Context) (parent : Inode) (name : Name) (mode rdev umask : UInt32)
    (extensions : Extensions) : FsM Entry := do
  let data ← getInode parent
  let parentFile ← data.data.getFile
  changingName cfg data.data name
    (withCredentials cfg ctx extensions (some umask) (libc (.mknodat parentFile name mode rdev)))
  labelNewName cfg parentFile name extensions 0
  doLookup cfg parent name

/-- `symlink`, which leaves the umask alone. -/
def symlink (ctx : Context) (linkname : Name) (parent : Inode) (name : Name)
    (extensions : Extensions) : FsM Entry := do
  let data ← getInode parent
  let parentFile ← data.data.getFile
  changingName cfg data.data name
    (withCredentials cfg ctx extensions none (libc (.symlinkat linkname parentFile name)))
  labelNewName cfg parentFile name extensions 0
  doLookup cfg parent name

/-- `link`. -/
def link (inode newparent : Inode) (newname : Name) : FsM Entry := do
  let data ← getInode inode
  let newInode ← getInode newparent
  let inodeFile ← data.data.getFile
  let newparentFile ← newInode.data.getFile
  changingName cfg newInode.data newname (libc (.linkat inodeFile newparentFile newname))
  doLookup cfg newparent newname

/-- **`rename`.**  A failure to update the migration info is logged. -/
def rename (olddir : Inode) (oldname : Name) (newdir : Inode) (newname : Name)
    (flags : UInt32) : FsM Unit := do
  let oldInode ← getInode olddir
  let newInode ← getInode newdir
  let oldFile ← oldInode.data.getFile
  let newFile ← newInode.data.getFile
  changingName cfg newInode.data newname
    (libc (.renameat2 oldFile oldname newFile newname flags))
  let _ ← (updateInodeMigrationInfo cfg newInode newname).attempt
  query (.dentry (.rename olddir oldname newdir newname))

/-- `do_unlink`, for `unlink` and `rmdir`. -/
def doUnlink (parent : Inode) (name : Name) (flags : Nat) : FsM Unit := do
  let data ← getInode parent
  let parentFile ← data.data.getFile
  changingName cfg data.data name (libc (.unlinkat parentFile name flags))
  query (.dentry (.remove parent name))

/-- `unlink`. -/
def unlink (parent : Inode) (name : Name) : FsM Unit := doUnlink cfg parent name 0

/-- `rmdir`. -/
def rmdir (parent : Inode) (name : Name) : FsM Unit := doUnlink cfg parent name AT_REMOVEDIR

/-! ## 6. CREATE -/

/-- `do_create`.  If the security context cannot be set, the new file is removed again. -/
def doCreate (ctx : Context) (parentFile : Fd) (name : Name) (mode flags umask : UInt32)
    (extensions : Extensions) : NeutralM Fd := do
  let fd ← withCredentials cfg ctx extensions (some umask)
    (openRelativeTo parentFile name (flags ||| O_CREAT ||| O_EXCL) (some mode))
  match extensions.secctx with
  | none => return fd
  | some secctx =>
    let xattrName ← onErr (mapClientXattrname cfg secctx.name)
      (discard <| libc (.unlinkat parentFile name 0))
    if !(← libc (.fsetxattr fd xattrName secctx.secctx 0)) then
      discard <| libc (.unlinkat parentFile name 0)
      .err (← lastOsError)
    return fd

/-- The first half of `create`: make the file, or see that it exists, and look it up.  The
descriptor is there if the file is new. -/
def createEntry (ctx : Context) (parent : Inode) (name : Name) (mode flags umask : UInt32)
    (extensions : Extensions) : FsM (Entry × Option Fd) := do
  let data ← getInode parent
  let parentFile ← data.data.getFile
  let flags := guestOpenFlags cfg flags
  match ← (doCreate cfg ctx parentFile name mode (flags &&& ~~~O_APPEND) umask
      extensions).attempt with
  | .error lastError =>
    if lastError.kind = .alreadyExists ∧ flags &&& O_EXCL = 0 then
      return (← doLookup cfg parent name, none)
    else .err lastError
  | .ok fd => return (← doLookup cfg parent name, some fd)

/-- The second half of `create`: a handle for the file that was looked up. -/
def createHandle (mode : UInt32) (killPriv : Bool) (flags : UInt32) (entry : Entry)
    (fd : Option Fd) : NeutralM Handle := do
  let flags := guestOpenFlags cfg flags
  match fd with
  | none =>
    match (← doOpen cfg entry.inode killPriv flags).1 with
    | some handle => return handle
    | none => .err .ebadf
  | some fd => newHandle entry.inode fd (fileType mode.toNat) flags

/-- The options of a file that was created. -/
def createOptions : OpenOptions :=
  match cfg.cachePolicy with
  | .never => OpenOptions.DIRECT_IO
  | .metadata => OpenOptions.DIRECT_IO
  | .always => OpenOptions.KEEP_CACHE
  | .auto => 0

/-- **`create`.** -/
def create (ctx : Context) (parent : Inode) (name : Name) (mode : UInt32) (killPriv : Bool)
    (flags umask : UInt32) (extensions : Extensions) :
    FsM (Entry × Option Handle × OpenOptions) := do
  let (entry, fd) ← createEntry cfg ctx parent name mode flags umask extensions
  let handle ← createHandle cfg mode killPriv flags entry fd
  return (entry, some handle, createOptions cfg)

/-! ## 7. Files and attributes -/

/-- `read`. -/
def read (inode : Inode) (handle : Handle) (w : ZeroCopyWriter) (size offset : Nat) :
    NeutralM Nat := do
  let (_, fd) ← findHandle handle inode
  w.readFromFileAt fd size offset

/-- `write`.  A file opened for appending is written at its end, unless the guest's page
cache has already computed the offset. -/
def write (inode : Inode) (handle : Handle) (r : ZeroCopyReader) (size offset : Nat)
    (delayedWrite killPriv : Bool) (flags : UInt32) : NeutralM Nat := do
  let (data, fd) ← findHandle handle inode
  withoutFsetid (cfg.killprivV2 && killPriv) do
    clearFileCapabilities cfg fd data.fileType false
    r.writeToFileAt fd size offset (!delayedWrite && flags &&& O_APPEND ≠ 0)

/-- `readdir`. -/
def readdir (inode : Inode) (handle : Handle) (size offset : Nat) :
    NeutralM (List LinuxDirent) := do
  if size = 0 then return []
  let (_, fd) ← findHandle handle inode
  errno (← host (.getdents fd (some offset) size))

/-- `do_getattr`, for `getattr`. -/
def getattr (inode : Inode) : NeutralM (Attr × Nat) := do
  let data ← getInode inode
  let fd ← data.data.getFile
  let st ← statx fd none
  let attr ← ofExcept (Attr.tryWithFlags cfg st.st 0)
  return (attr, cfg.attrTimeout)

/-- `u32::MAX` stands for an id that does not change. -/
def mapIdIf (valid : Bool) (map : IdMap) (id : UInt32) : NeutralM UInt32 :=
  if valid then ofExcept (map.mapGuest id) else return 0xffffffff

/-- A time of `setattr`: left alone (`none`), now (`some none`) or given. -/
def setattrTime (now valid : Bool) (sec nsec : Nat) : Option (Option (Nat × Nat)) :=
  if now then some none else if valid then some (some (sec, nsec)) else none

/-- The descriptor `setattr` works on: of the handle, or of the inode. -/
inductive SetattrData where
  | handle (fd : Fd)
  | procPath (fd : Fd)

/-- The MODE part of `setattr`. -/
def setattrMode (data : SetattrData) (mode : UInt32) : NeutralM Unit :=
  match data with
  | .handle fd => libcOk (.fchmod fd mode)
  | .procPath fd => libcOk (.fchmodat fd mode)

/-- The UID and GID part of `setattr`. -/
def setattrOwner (inodeFile : Fd) (type : Nat) (attr : SetattrIn) (valid : SetattrValid) :
    NeutralM Unit := do
  let uid ← mapIdIf valid.uid cfg.uidMap attr.uid
  let gid ← mapIdIf valid.gid cfg.gidMap attr.gid
  clearFileCapabilities cfg inodeFile type true
  libcOk (.fchownat inodeFile uid gid)

/-- The SIZE part of `setattr`. -/
def setattrSize (data : SetattrData) (rdwrInodeFile : Bool) (inodeFile : Fd) (type : Nat)
    (attr : SetattrIn) (valid : SetattrValid) : NeutralM Unit := do
  let fd ← match data with
    | .handle fd => pure fd
    | .procPath _ => if rdwrInodeFile then pure inodeFile else .panic .setattrAssert
  withoutFsetid (cfg.killprivV2 && valid.killSuidgid) do
    clearFileCapabilities cfg fd type false
    libcOk (.ftruncate fd attr.size)

/-- The ATIME and MTIME part of `setattr`. -/
def setattrTimes (data : SetattrData) (attr : SetattrIn) (valid : SetattrValid) :
    NeutralM Unit :=
  let atime := setattrTime valid.atimeNow valid.atime attr.atime attr.atimensec
  let mtime := setattrTime valid.mtimeNow valid.mtime attr.mtime attr.mtimensec
  match data with
  | .handle fd => libcOk (.futimens fd atime mtime)
  | .procPath fd => libcOk (.utimensat fd atime mtime)

/-- **`setattr`.**  To truncate without a handle, the inode is opened for writing. -/
def setattr (inode : Inode) (attr : SetattrIn) (handle : Option Handle) (valid : SetattrValid) :
    NeutralM (Attr × Nat) := do
  let data ← getInode inode
  let type := fileType data.data.mode
  let rdwrInodeFile := handle.isNone && valid.size
  let inodeFile ← if rdwrInodeFile then data.data.openFile (O_NONBLOCK ||| O_RDWR)
    else data.data.getFile
  let target ← match handle with
    | some handle => do
      let (_, fd) ← findHandle handle inode
      pure (SetattrData.handle fd)
    | none => pure (SetattrData.procPath inodeFile)
  if valid.mode then setattrMode target attr.mode
  if valid.uid || valid.gid then setattrOwner cfg inodeFile type attr valid
  if valid.size then setattrSize cfg target rdwrInodeFile inodeFile type attr valid
  if valid.atime || valid.mtime then setattrTimes target attr valid
  getattr cfg inode

/-- `statfs`. -/
def statfs (inode : Inode) : NeutralM (List Nat) := do
  let data ← getInode inode
  let fd ← data.data.getFile
  match ← host (.fstatvfs fd) with
  | some out => return out
  | none => .err (← lastOsError)

/-- `readlink`. -/
def readlink (inode : Inode) : NeutralM (List UInt8) := do
  let data ← getInode inode
  let fd ← data.data.getFile
  match ← host (.readlinkat fd) with
  | some buf => return buf
  | none => .err (← lastOsError)

/-- `flush`. -/
def flush (inode : Inode) (handle : Handle) : NeutralM Unit := do
  let (_, fd) ← findHandle handle inode
  match ← host (.dup fd) with
  | some newfd => libcOk (.close newfd)
  | none => .err (← lastOsError)

/-- `fsync`, also for `fsyncdir`. -/
def fsync (inode : Inode) (datasync : Bool) (handle : Handle) : NeutralM Unit := do
  let (_, fd) ← findHandle handle inode
  libcOk (if datasync then .fdatasync fd else .fsync fd)

def R_OK : Nat := 4
def W_OK : Nat := 2
def X_OK : Nat := 1

/-- Whether a class of permission bits (`r`, `w` or `x`, as the bit for others) refuses. -/
def accessRefused (ctx : Context) (uid gid : UInt32) (mode bit : Nat) (exempt : Bool) : Bool :=
  !exempt && (uid ≠ ctx.uid || mode &&& (bit * 0o100) == 0) &&
    (gid ≠ ctx.gid || mode &&& (bit * 0o10) == 0) && mode &&& bit == 0

/-- `access`. -/
def access (ctx : Context) (inode : Inode) (mask : UInt32) : NeutralM Unit := do
  let data ← getInode inode
  let fd ← data.data.getFile
  let st ← statx fd none
  let mode := mask.toNat &&& (R_OK ||| W_OK ||| X_OK)
  if mode = 0 then return ()
  let uid ← ofExcept (cfg.uidMap.mapHost st.st.uid)
  let gid ← ofExcept (cfg.gidMap.mapHost st.st.gid)
  let root := ctx.uid == 0
  if mode &&& R_OK ≠ 0 ∧ accessRefused ctx uid gid st.st.mode R_OK root then .err (.os EACCES)
  if mode &&& W_OK ≠ 0 ∧ accessRefused ctx uid gid st.st.mode W_OK root then .err (.os EACCES)
  -- root needs some execute bit too
  if mode &&& X_OK ≠ 0 ∧
      accessRefused ctx uid gid st.st.mode X_OK (root && st.st.mode &&& 0o111 != 0) then
    .err (.os EACCES)

/-- The beginning of the xattr requests on an inode: a real descriptor if it is safe to open
one, the `O_PATH` one otherwise. -/
def xattrFile (data : InodeData) : NeutralM Fd :=
  if isSafeInode data.mode then openInode cfg data (O_RDONLY ||| O_NONBLOCK) else data.getFile

/-- A call on the descriptor of `xattrFile`: an `O_PATH` one is reached through
`/proc/self/fd`. -/
def onXattrFile {α : Type} (data : InodeData) (call : NeutralM α) : NeutralM α :=
  if isSafeInode data.mode then call else inProcSelfFd call

/-- `setxattr`; `killSgid` is `SETXATTR_ACL_KILL_SGID`. -/
def setxattr (inode : Inode) (name : Name) (value : List UInt8) (flags : UInt32)
    (killSgid : Bool) : NeutralM Unit := do
  if !cfg.xattr then .err (.os ENOSYS)
  let data ← getInode inode
  let name ← mapClientXattrname cfg name
  let posixAcl : Bool ← query (.load .posixAcl)
  let fd ← xattrFile cfg data.data
  let safe := isSafeInode data.data.mode
  clearFileCapabilities cfg fd (fileType data.data.mode) (!safe)
  if posixAcl && killSgid && name == aclAccess then clearSgid fd (!safe)
  let ok ← onXattrFile data.data
    (libc (if safe then .fsetxattr fd name value flags else .setxattr fd name value flags))
  if !ok then .err (← lastOsError)

/-- `getxattr`. -/
def getxattr (inode : Inode) (name : Name) (size : Nat) : NeutralM XattrReply := do
  if !cfg.xattr then .err (.os ENOSYS)
  let mapped ← (mapClientXattrname cfg name).attempt
  let name ← match mapped with
    | .ok name => pure name
    | .error e => .err (if e.kind = .permissionDenied then .os ENODATA else e)
  let data ← getInode inode
  let fd ← xattrFile cfg data.data
  match ← onXattrFile data.data (host (.getxattr fd (!isSafeInode data.data.mode) name size)) with
  | none => .err (← lastOsError)
  | some (n, buf) => return if size = 0 then .count n else .value buf

/-- `listxattr`. -/
def listxattr (inode : Inode) (size : Nat) : NeutralM XattrReply := do
  if !cfg.xattr then .err (.os ENOSYS)
  let data ← getInode inode
  let fd ← xattrFile cfg data.data
  match ← onXattrFile data.data (host (.listxattr fd (!isSafeInode data.data.mode) size)) with
  | none => .err (← lastOsError)
  | some (n, buf) =>
    if size = 0 then return .count n
    else return .value (← mapServerXattrlist cfg buf)

/-- `removexattr`. -/
def removexattr (inode : Inode) (name : Name) : NeutralM Unit := do
  if !cfg.xattr then .err (.os ENOSYS)
  let data ← getInode inode
  let name ← mapClientXattrname cfg name
  let fd ← xattrFile cfg data.data
  let ok ← onXattrFile data.data
    (libc (if isSafeInode data.data.mode then .fremovexattr fd name else .removexattr fd name))
  if !ok then .err (← lastOsError)

/-- `fallocate`. -/
def fallocate (inode : Inode) (handle : Handle) (mode : UInt32) (offset length : Nat) :
    NeutralM Unit := do
  let (_, fd) ← findHandle handle inode
  libcOk (.fallocate fd mode offset length)

/-- `lseek`. -/
def lseek (inode : Inode) (handle : Handle) (offset : Nat) (whence : UInt32) : NeutralM Nat := do
  let (_, fd) ← findHandle handle inode
  match ← host (.lseek fd offset whence) with
  | some n => return n
  | none => .err (← lastOsError)

/-- `copyfilerange`. -/
def copyfilerange (inodeIn : Inode) (handleIn : Handle) (offsetIn : Nat) (inodeOut : Inode)
    (handleOut : Handle) (offsetOut len flags : Nat) : NeutralM Nat := do
  let (_, fdIn) ← findHandle handleIn inodeIn
  let (_, fdOut) ← findHandle handleOut inodeOut
  match ← host (.copyFileRange fdIn offsetIn fdOut offsetOut len flags) with
  | some n => return n
  | none => .err (← lastOsError)

/-- `syncfs`. -/
def syncfs (inode : Inode) : NeutralM Unit := do
  let data ← getInode inode
  let fd ← openInode cfg data.data (O_RDONLY ||| O_NOFOLLOW)
  libcOk (.syncfs fd)

/-! ## 8. Sessions -/

/-- **`destroy`.** -/
def destroy : SessionM Unit := do
  query .clearHandles
  sessionAct .clear
  query (.store .writeback false)
  query (.store .announceSubmounts false)
  query (.store .posixAcl false)
  query (.store .supGroupExtension false)

/-- What `open_root_node` learns about the root: how to reach it, its stat, and the file
handle for its migration info.  Without that handle the root has no migration info. -/
def openRoot : NeutralM (FileOrHandle × StatExt × Except IoError (Option SerializableFileHandle)) :=
    do
  let pathFd ← errno (← host (.openRoot (O_PATH ||| O_NOFOLLOW ||| O_CLOEXEC)))
  let st ← statx pathFd none
  let handle ← getFileHandleOpt cfg pathFd st
  let fileOrHandle ← newFileOrHandle cfg pathFd handle
  return (fileOrHandle, st, ← (verifyHandle cfg fileOrHandle).attempt)

/-- `InodeMigrationInfo::new_root`. -/
def rootInfo (fileHandle : Except IoError (Option SerializableFileHandle)) :
    Option InodeMigrationInfo :=
  fileHandle.toOption.map fun fileHandle => ⟨.rootNode, fileHandle⟩

/-- **`open_root_node`.**  "Not sure why the root inode gets a refcount of 2 but that's what
libfuse does." -/
def openRootNode : SessionM Unit := do
  let (fileOrHandle, st, fileHandle) ← openRoot cfg
  let data : InodeData := ⟨ROOT_ID, fileOrHandle, st.ids, st.st.mode⟩
  let inserted : Bool ← sessionAct (.newInode ⟨data, 2, rootInfo fileHandle⟩)
  if !inserted then
    dropFile fileOrHandle
    .err (.other s!"Double-use of FUSE inode ID {data.inode}")

/-- The part of `init` that negotiates one option: `opts` grow if the guest has it. -/
def negotiate (mode : NegotiationMode) (capable required opts : FsOptions) :
    Except IoError (FsOptions × Bool) :=
  if mode = .never then .ok (opts, false)
  else if capable.contains required then .ok (opts ||| required, true)
  else if mode = .always then .error (.os EPROTO)
  else .ok (opts, false)

/-- The negotiation of `init`. -/
def negotiateOptions (capable : FsOptions) : NeutralM FsOptions := do
  let opts := if cfg.readdirplus then FsOptions.DO_READDIRPLUS ||| FsOptions.READDIRPLUS_AUTO else 0
  let writeback := cfg.writeback && capable.contains FsOptions.WRITEBACK_CACHE
  if writeback then query (.store .writeback true)
  let opts := if writeback then opts ||| FsOptions.WRITEBACK_CACHE else opts
  if cfg.announceSubmounts && capable.contains FsOptions.SUBMOUNTS then
    query (.store .announceSubmounts true)
  let opts := if cfg.killprivV2 && capable.contains FsOptions.HANDLE_KILLPRIV_V2 then
    opts ||| FsOptions.HANDLE_KILLPRIV_V2 else opts
  let (opts, posixAcl) ← ofExcept (negotiate cfg.posixAcl capable
    (FsOptions.POSIX_ACL ||| FsOptions.DONT_MASK ||| FsOptions.SETXATTR_EXT) opts)
  if posixAcl then query (.store .posixAcl true)
  let (opts, _) ← ofExcept (negotiate cfg.securityLabel capable FsOptions.SECURITY_CTX opts)
  let opts := if cfg.allowMmap then opts ||| FsOptions.DIRECT_IO_ALLOW_MMAP else opts
  if capable.contains FsOptions.CREATE_SUPP_GROUP then query (.store .supGroupExtension true)
  return opts

/-- **`init`.** -/
def init (capable : FsOptions) : SessionM FsOptions := do
  destroy
  openRootNode cfg
  negotiateOptions cfg capable

end PassthroughFs

end Virtiofsd
