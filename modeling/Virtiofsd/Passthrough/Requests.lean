/-
  # Serving requests, read-write and read-only

  `Request` lists the methods of the `FileSystem` trait with their arguments, `Reply` what
  they return.  `PassthroughFs` serves all of them; `PassthroughFsRo` (`read_only.rs`)
  forwards what only reads, refuses what only writes, and looks closer at what may do
  either.
-/
import Virtiofsd.Passthrough.Operations

namespace Virtiofsd

open Lib

/-! ## 1. Requests and replies -/

/-- The methods of `FileSystem` on files and attributes, which touch no inode reference.
`releasedir` and `fsyncdir` are `release` and `fsync`. -/
inductive FileRequest where
  | open (inode : Inode) (killPriv : Bool) (flags : UInt32)
  | opendir (inode : Inode) (flags : UInt32)
  | release (inode : Inode) (handle : Handle)
  | read (inode : Inode) (handle : Handle) (w : ZeroCopyWriter) (size offset : Nat)
  | write (inode : Inode) (handle : Handle) (r : ZeroCopyReader) (size offset : Nat)
      (delayedWrite killPriv : Bool) (flags : UInt32)
  | readdir (inode : Inode) (handle : Handle) (size offset : Nat)
  | getattr (inode : Inode)
  | setattr (inode : Inode) (attr : SetattrIn) (handle : Option Handle) (valid : SetattrValid)
  | statfs (inode : Inode)
  | readlink (inode : Inode)
  | flush (inode : Inode) (handle : Handle)
  | fsync (inode : Inode) (datasync : Bool) (handle : Handle)
  | access (ctx : Context) (inode : Inode) (mask : UInt32)
  | setxattr (inode : Inode) (name : Name) (value : List UInt8) (flags : UInt32)
      (killSgid : Bool)
  | getxattr (inode : Inode) (name : Name) (size : Nat)
  | listxattr (inode : Inode) (size : Nat)
  | removexattr (inode : Inode) (name : Name)
  | fallocate (inode : Inode) (handle : Handle) (mode : UInt32) (offset length : Nat)
  | lseek (inode : Inode) (handle : Handle) (offset : Nat) (whence : UInt32)
  | copyfilerange (inodeIn : Inode) (handleIn : Handle) (offsetIn : Nat) (inodeOut : Inode)
      (handleOut : Handle) (offsetOut len flags : Nat)
  | syncfs (inode : Inode)

/-- **The methods of `FileSystem`**, without `init` and `destroy`. -/
inductive Request where
  | file (request : FileRequest)
  | lookup (parent : Inode) (name : Name)
  | forget (inode : Inode) (count : Nat)
  | batchForget (requests : List (Inode × Nat))
  | mkdir (ctx : Context) (parent : Inode) (name : Name) (mode umask : UInt32)
      (extensions : Extensions)
  | mknod (ctx : Context) (parent : Inode) (name : Name) (mode rdev umask : UInt32)
      (extensions : Extensions)
  | symlink (ctx : Context) (linkname : Name) (parent : Inode) (name : Name)
      (extensions : Extensions)
  | link (inode newparent : Inode) (newname : Name)
  | rename (olddir : Inode) (oldname : Name) (newdir : Inode) (newname : Name) (flags : UInt32)
  | unlink (parent : Inode) (name : Name)
  | rmdir (parent : Inode) (name : Name)
  | create (ctx : Context) (parent : Inode) (name : Name) (mode : UInt32) (killPriv : Bool)
      (flags umask : UInt32) (extensions : Extensions)

/-- What the methods on files and attributes return. -/
inductive FileReply where
  | done
  | opened (handle : Option Handle) (opts : OpenOptions)
  | number (n : Nat)
  | dirents (entries : List LinuxDirent)
  | attr (a : Attr) (timeout : Nat)
  | statvfs (st : List Nat)
  | bytes (data : List UInt8)
  | xattr (reply : XattrReply)

/-- What the methods return.  Entries hand a reference to the guest. -/
inductive Reply where
  | done
  | file (reply : FileReply)
  | entry (e : Entry)
  | created (e : Entry) (handle : Option Handle) (opts : OpenOptions)

namespace Reply

/-- A program that returns nothing, as one with a reply. -/
def ofUnit (p : FsM Unit) : FsM Reply := do
  p
  return .done

/-- A program that returns an entry, as one with a reply. -/
def ofEntry (p : FsM Entry) : FsM Reply := do
  let e ← p
  return .entry e

/-- A request on a file, as one with a reply. -/
def ofFile (p : NeutralM FileReply) : FsM Reply := do
  let r ← p
  return .file r

end Reply

/-! ## 2. `PassthroughFs` -/

namespace PassthroughFs

/-- The requests on files and attributes. -/
def serveFile (cfg : Config) : FileRequest → NeutralM FileReply
  | .open inode killPriv flags => do
    let (handle, opts) ← openFile cfg inode killPriv flags
    return .opened handle opts
  | .opendir inode flags => do
    let (handle, opts) ← opendir cfg inode flags
    return .opened handle opts
  | .release inode handle => do doRelease inode handle; return .done
  | .read inode handle w size offset => return .number (← read inode handle w size offset)
  | .write inode handle r size offset delayedWrite killPriv flags =>
    return .number (← write cfg inode handle r size offset delayedWrite killPriv flags)
  | .readdir inode handle size offset => return .dirents (← readdir inode handle size offset)
  | .getattr inode => do
    let (attr, timeout) ← getattr cfg inode
    return .attr attr timeout
  | .setattr inode attr handle valid => do
    let (attr, timeout) ← setattr cfg inode attr handle valid
    return .attr attr timeout
  | .statfs inode => return .statvfs (← statfs inode)
  | .readlink inode => return .bytes (← readlink inode)
  | .flush inode handle => do flush inode handle; return .done
  | .fsync inode datasync handle => do fsync inode datasync handle; return .done
  | .access ctx inode mask => do access cfg ctx inode mask; return .done
  | .setxattr inode name value flags killSgid => do
    setxattr cfg inode name value flags killSgid; return .done
  | .getxattr inode name size => return .xattr (← getxattr cfg inode name size)
  | .listxattr inode size => return .xattr (← listxattr cfg inode size)
  | .removexattr inode name => do removexattr cfg inode name; return .done
  | .fallocate inode handle mode offset length => do
    fallocate inode handle mode offset length; return .done
  | .lseek inode handle offset whence => return .number (← lseek inode handle offset whence)
  | .copyfilerange inodeIn handleIn offsetIn inodeOut handleOut offsetOut len flags =>
    return .number
      (← copyfilerange inodeIn handleIn offsetIn inodeOut handleOut offsetOut len flags)
  | .syncfs inode => do syncfs cfg inode; return .done

/-- **`PassthroughFs`, request by request.** -/
def serve (cfg : Config) : Request → FsM Reply
  | .file request => Reply.ofFile (serveFile cfg request)
  | .lookup parent name => Reply.ofEntry (lookup cfg parent name)
  | .forget inode count => Reply.ofUnit (forget inode count)
  | .batchForget requests => Reply.ofUnit (batchForget requests)
  | .mkdir ctx parent name mode umask extensions =>
    Reply.ofEntry (mkdir cfg ctx parent name mode umask extensions)
  | .mknod ctx parent name mode rdev umask extensions =>
    Reply.ofEntry (mknod cfg ctx parent name mode rdev umask extensions)
  | .symlink ctx linkname parent name extensions =>
    Reply.ofEntry (symlink cfg ctx linkname parent name extensions)
  | .link inode newparent newname => Reply.ofEntry (link cfg inode newparent newname)
  | .rename olddir oldname newdir newname flags =>
    Reply.ofUnit (rename cfg olddir oldname newdir newname flags)
  | .unlink parent name => Reply.ofUnit (unlink cfg parent name)
  | .rmdir parent name => Reply.ofUnit (rmdir cfg parent name)
  | .create ctx parent name mode killPriv flags umask extensions => do
    let (e, handle, opts) ← create cfg ctx parent name mode killPriv flags umask extensions
    return .created e handle opts

end PassthroughFs

/-! ## 3. `PassthroughFsRo` -/

namespace PassthroughFsRo

/-- `ReadOnlyOpen`. -/
inductive ReadOnlyOpen where
  | open (flags : UInt32)
  | openExisting (flags : UInt32)
  deriving DecidableEq

/-- `read_only_open`, on a host that keeps `O_PATH`. -/
def readOnlyOpen (flags : UInt32) : Except IoError ReadOnlyOpen :=
  if 0x80000000 ≤ flags then .error (.custom .invalidInput "out of range integral type conversion")
  else if flags &&& O_PATH ≠ 0 then .ok (.open flags)
  else if flags &&& O_ACCMODE ≠ O_RDONLY then .error .erofs
  else if flags &&& O_EXCL ≠ 0 then .error .erofs
  else if flags &&& O_TMPFILE_BIT ≠ 0 then .error .einval
  else if flags &&& O_TRUNC ≠ 0 then .error .einval
  else if flags &&& O_CREAT = 0 then .ok (.open flags)
  else .ok (.openExisting (flags &&& ~~~O_CREAT))

/-- On a read-only file system what is not there cannot be made: NotFound becomes EROFS. -/
def notFoundToErofs (e : IoError) : IoError := if e.kind = .notFound then .erofs else e

/-- `rofs_open`. -/
def rofsOpen {α : Type} (flags : UInt32) (openFn : UInt32 → NeutralM α) : NeutralM α := do
  match ← Prog.ofExcept (readOnlyOpen flags) with
  | .open flags => openFn flags
  | .openExisting flags =>
    match ← (openFn flags).attempt with
    | .ok a => return a
    | .error e => .err (notFoundToErofs e)

/-- `open`. -/
def openFile (cfg : Config) (inode : Inode) (killPriv : Bool) (flags : UInt32) :
    NeutralM (Option Handle × OpenOptions) :=
  rofsOpen flags fun flags => PassthroughFs.openFile cfg inode killPriv flags

/-- `opendir`. -/
def opendir (cfg : Config) (inode : Inode) (flags : UInt32) :
    NeutralM (Option Handle × OpenOptions) :=
  rofsOpen flags fun flags => PassthroughFs.opendir cfg inode flags

/-- The first half of `create`: the file has to exist. -/
def createEntry (cfg : Config) (parent : Inode) (name : Name) : FsM Entry := do
  match ← (PassthroughFs.lookup cfg parent name).attempt with
  | .ok entry => return entry
  | .error e => .err (notFoundToErofs e)

/-- **`create`.** -/
def create (cfg : Config) (parent : Inode) (name : Name) (killPriv : Bool) (flags : UInt32) :
    FsM (Entry × Option Handle × OpenOptions) := do
  let entry ← createEntry cfg parent name
  let (handle, opts) ← openFile cfg entry.inode killPriv flags
  return (entry, handle, opts)

/-- The requests on files and attributes. -/
def serveFile (cfg : Config) : FileRequest → NeutralM FileReply
  | .open inode killPriv flags => do
    let (handle, opts) ← openFile cfg inode killPriv flags
    return .opened handle opts
  | .opendir inode flags => do
    let (handle, opts) ← opendir cfg inode flags
    return .opened handle opts
  | .access ctx inode mask => do
    if mask &&& 2 ≠ 0 then .err .erofs
    PassthroughFs.access cfg ctx inode mask
    return .done
  | .setattr .. => .err .erofs
  | .write .. => .err .erofs
  | .fallocate .. => .err .erofs
  | .setxattr .. => .err .erofs
  | .removexattr .. => .err .erofs
  | .copyfilerange .. => .err .erofs
  | request => PassthroughFs.serveFile cfg request

/-- **`PassthroughFsRo`, request by request.** -/
def serve (cfg : Config) : Request → FsM Reply
  | .file request => Reply.ofFile (serveFile cfg request)
  | .create _ parent name _ killPriv flags _ _ => do
    let (e, handle, opts) ← create cfg parent name killPriv flags
    return .created e handle opts
  | .symlink .. => .err .erofs
  | .mknod .. => .err .erofs
  | .mkdir .. => .err .erofs
  | .unlink .. => .err .erofs
  | .rmdir .. => .err .erofs
  | .rename .. => .err .erofs
  | .link .. => .err .erofs
  | request => PassthroughFs.serve cfg request

end PassthroughFsRo

end Virtiofsd
