/-
  # Reading requests (`server.rs`)

  The first half of every handler: the fixed part of the request, the names behind it, and the
  extensions, as arguments for the file system.  `FsCall` lists the methods of the file system
  as the server calls them, together with its accesses to the negotiated options.

  A name ends in a zero.  How many bytes belong to the request is said by its header, and only
  these are read; what the guest says there and what is in the chain may differ.
-/
import Virtiofsd.Descriptor.Streams
import Virtiofsd.Server.Messages

namespace Virtiofsd

open Lib

namespace Server

open Fuse

/-! ## 1. The readable part of a message -/

/-- A `Reader`, and guest memory as it is when the message is read. -/
structure Input where
  memory : Memory
  reader : Reader

/-- What is left to read. -/
def Input.bytes (r : Input) : List UInt8 := (addrs r.reader.buffers).map r.memory

/-- `read_exact`, into a buffer of `len` bytes. -/
def Input.readExact (r : Input) (len : Nat) : Parse (List UInt8 × Input) :=
  match chainStep r.memory r.reader (.readExact len) with
  | (⟨delivered, .ok _⟩, _, reader, _) => .ok (delivered, { r with reader })
  | (⟨_, .error (.io e)⟩, _, _, _) => .err (.decodeMessage e)
  | (⟨_, .error (.splitOutOfBounds _)⟩, _, _, _) => .panic .slice

/-- `read_obj`. -/
def Input.readObj (r : Input) (T : Type) [ByteValued T] : Parse (T × Input) := do
  let (bytes, r) ← r.readExact (ByteValued.size T)
  return (ByteValued.fromSlice bytes, r)

/-! ## 2. Names -/

/-- The length of what is behind the header and the fixed part of a request. -/
def remainingLen (h : MessageHeader) (fixed : Nat) : Parse Nat :=
  okOr ((checkedSub h.len.toNat (ByteValued.size MessageHeader)).bind fun l => checkedSub l fixed)
    .invalidHeaderLength

/-- What is behind the header and the fixed part of a request. -/
def readRemaining (h : MessageHeader) (fixed : Nat) (r : Input) : Parse (List UInt8) := do
  let len ← remainingLen h fixed
  let (buf, _) ← r.readExact len
  return buf

/-- `bytes_to_cstr`. -/
def bytesToCstr (buf : List UInt8) : Parse Name := okOr (fromBytesWithNul buf) .invalidCString

/-- A request that is one name. -/
def readName (h : MessageHeader) (fixed : Nat) (r : Input) : Parse Name := do
  bytesToCstr (← readRemaining h fixed r)

/-- The part up to the first zero, and what follows it. -/
def splitName (buf : List UInt8) : Parse (List UInt8 × List UInt8) :=
  match buf.findIdx? (· = 0) with
  | some p => splitSlice buf (p + 1)
  | none => .err .missingParameter

/-! ## 3. The file system -/

/-- The methods of `FileSystem` without arguments, which `PassthroughFs` does not have. -/
inductive Unsupported where
  | getlk
  | setlk
  | setlkw
  | ioctl
  | bmap
  | poll
  | notifyReply
  | tmpfile
  deriving DecidableEq

/-- **The calls of the server**: the methods of `FileSystem`, and `loadOptions` and
`storeOptions`, which access the options in the server itself. -/
inductive FsCall where
  | dir (c : DirectoryCall)
  | loadOptions
  | storeOptions (options : UInt64)
  | init (capable : FsOptions)
  | destroy
  | batchForget (ctx : Context) (requests : List (UInt64 × UInt64))
  | getattr (ctx : Context) (inode : UInt64) (handle : Option UInt64)
  | setattr (ctx : Context) (inode : UInt64) (attr : Fuse.SetattrIn) (handle : Option UInt64)
      (valid : UInt32)
  | readlink (ctx : Context) (inode : UInt64)
  | symlink (ctx : Context) (linkname : Name) (parent : UInt64) (name : Name)
      (extensions : Extensions)
  | mknod (ctx : Context) (parent : UInt64) (name : Name) (mode rdev umask : UInt32)
      (extensions : Extensions)
  | mkdir (ctx : Context) (parent : UInt64) (name : Name) (mode umask : UInt32)
      (extensions : Extensions)
  | unlink (ctx : Context) (parent : UInt64) (name : Name)
  | rmdir (ctx : Context) (parent : UInt64) (name : Name)
  | rename (ctx : Context) (olddir : UInt64) (oldname : Name) (newdir : UInt64) (newname : Name)
      (flags : UInt32)
  | link (ctx : Context) (inode newparent : UInt64) (newname : Name)
  | open (ctx : Context) (inode : UInt64) (killPriv : Bool) (flags : UInt32)
  | create (ctx : Context) (parent : UInt64) (name : Name) (mode : UInt32) (killPriv : Bool)
      (flags umask : UInt32) (extensions : Extensions)
  | read (ctx : Context) (inode handle : UInt64) (w : Writer) (size : UInt32) (offset : UInt64)
      (lockOwner : Option UInt64) (flags : UInt32)
  | write (ctx : Context) (inode handle : UInt64) (r : Reader) (size : UInt32) (offset : UInt64)
      (lockOwner : Option UInt64) (delayedWrite killPriv : Bool) (flags : UInt32)
  | flush (ctx : Context) (inode handle lockOwner : UInt64)
  | fsync (ctx : Context) (inode : UInt64) (datasync : Bool) (handle : UInt64)
  | fsyncdir (ctx : Context) (inode : UInt64) (datasync : Bool) (handle : UInt64)
  | fallocate (ctx : Context) (inode handle : UInt64) (mode : UInt32) (offset length : UInt64)
  | release (ctx : Context) (inode : UInt64) (flags : UInt32) (handle : UInt64)
      (flush flockRelease : Bool) (lockOwner : Option UInt64)
  | releasedir (ctx : Context) (inode : UInt64) (flags : UInt32) (handle : UInt64)
  | statfs (ctx : Context) (inode : UInt64)
  | setxattr (ctx : Context) (inode : UInt64) (name : Name) (value : List UInt8)
      (flags extraFlags : UInt32)
  | getxattr (ctx : Context) (inode : UInt64) (name : Name) (size : UInt32)
  | listxattr (ctx : Context) (inode : UInt64) (size : UInt32)
  | removexattr (ctx : Context) (inode : UInt64) (name : Name)
  | opendir (ctx : Context) (inode : UInt64) (flags : UInt32)
  | access (ctx : Context) (inode : UInt64) (mask : UInt32)
  | lseek (ctx : Context) (inode handle offset : UInt64) (whence : UInt32)
  | copyfilerange (ctx : Context) (inodeIn handleIn offsetIn inodeOut handleOut offsetOut len
      flags : UInt64)
  | syncfs (ctx : Context) (inode : UInt64)
  | unsupported (op : Unsupported)

/-- The answers; the iterators over directories are `I`. -/
abbrev FsCall.Ans (I : Type) : FsCall → Type
  | dir c => c.Ans I
  | loadOptions => UInt64
  | storeOptions _ => Unit
  | init _ => Except IoError FsOptions
  | destroy => Unit
  | batchForget _ _ => Unit
  | getattr _ _ _ => Except IoError (Fuse.Attr × Duration)
  | setattr _ _ _ _ _ => Except IoError (Fuse.Attr × Duration)
  | readlink _ _ => Except IoError (List UInt8)
  | symlink _ _ _ _ _ => Except IoError Entry
  | mknod _ _ _ _ _ _ _ => Except IoError Entry
  | mkdir _ _ _ _ _ _ => Except IoError Entry
  | unlink _ _ _ => Except IoError Unit
  | rmdir _ _ _ => Except IoError Unit
  | rename _ _ _ _ _ _ => Except IoError Unit
  | link _ _ _ _ => Except IoError Entry
  | .open _ _ _ _ => Except IoError (Option UInt64 × OpenOptions)
  | create _ _ _ _ _ _ _ _ => Except IoError (Entry × Option UInt64 × OpenOptions)
  | read _ _ _ _ _ _ _ _ => Except IoError Nat
  | write _ _ _ _ _ _ _ _ _ _ => Except IoError Nat
  | flush _ _ _ _ => Except IoError Unit
  | fsync _ _ _ _ => Except IoError Unit
  | fsyncdir _ _ _ _ => Except IoError Unit
  | fallocate _ _ _ _ _ _ => Except IoError Unit
  | release _ _ _ _ _ _ _ => Except IoError Unit
  | releasedir _ _ _ _ => Except IoError Unit
  | statfs _ _ => Except IoError Kstatfs
  | setxattr _ _ _ _ _ _ => Except IoError Unit
  | getxattr _ _ _ _ => Except IoError XattrReply
  | listxattr _ _ _ => Except IoError XattrReply
  | removexattr _ _ _ => Except IoError Unit
  | opendir _ _ _ => Except IoError (Option UInt64 × OpenOptions)
  | access _ _ _ => Except IoError Unit
  | lseek _ _ _ _ _ => Except IoError UInt64
  | copyfilerange _ _ _ _ _ _ _ _ _ => Except IoError Nat
  | syncfs _ _ => Except IoError Unit
  | unsupported _ => Except IoError Unit

/-! ## 4. The arguments of the requests -/

section

variable (h : MessageHeader) (r : Input)

/-- `Context::from`, and the inode of the request. -/
def ctxOf : Context := contextOf h.toInHeader

def lookupArgs : Parse FsCall := do
  return .dir (.lookup (ctxOf h) h.nodeid (← readName h 0 r))

def forgetArgs : Parse FsCall := do
  let (args, _) ← r.readObj ForgetIn
  return .dir (.forget (ctxOf h) h.nodeid args.nlookup)

def getattrArgs : Parse FsCall := do
  let (args, _) ← r.readObj GetattrIn
  return .getattr (ctxOf h) h.nodeid (if args.flags &&& GETATTR_FH ≠ 0 then some args.fh else none)

/-- `SetattrValid::from_bits_truncate`. -/
def setattrValid (valid : UInt32) : UInt32 := valid &&& 0xdbf

def setattrArgs : Parse FsCall := do
  let (args, _) ← r.readObj Fuse.SetattrIn
  return .setattr (ctxOf h) h.nodeid args
    (if args.valid &&& FATTR_FH ≠ 0 then some args.fh else none) (setattrValid args.valid)

def unlinkArgs : Parse FsCall := do
  return .unlink (ctxOf h) h.nodeid (← readName h 0 r)

def rmdirArgs : Parse FsCall := do
  return .rmdir (ctxOf h) h.nodeid (← readName h 0 r)

/-- `do_rename`. -/
def doRenameArgs (msgSize : Nat) (newdir : UInt64) (flags : UInt32) : Parse FsCall := do
  let buf ← readRemaining h msgSize r
  let (oldname, newname) ← splitName buf
  let oldname ← bytesToCstr oldname
  let newname ← bytesToCstr newname
  return .rename (ctxOf h) h.nodeid oldname newdir newname flags

def renameArgs : Parse FsCall := do
  let (args, r) ← r.readObj RenameIn
  doRenameArgs h r (ByteValued.size RenameIn) args.newdir 0

def rename2Args : Parse FsCall := do
  let (args, r) ← r.readObj Rename2In
  doRenameArgs h r (ByteValued.size Rename2In) args.newdir (args.flags &&& RENAME_FLAGS)

def linkArgs : Parse FsCall := do
  let (args, r) ← r.readObj LinkIn
  return .link (ctxOf h) args.oldnodeid h.nodeid (← readName h (ByteValued.size LinkIn) r)

def openArgs : Parse FsCall := do
  let (args, _) ← r.readObj OpenIn
  return .open (ctxOf h) h.nodeid (args.openFlags &&& OPEN_KILL_SUIDGID ≠ 0) args.flags

def writeArgs : Parse FsCall := do
  let (args, r) ← r.readObj IoIn
  let owner := if args.ioFlags &&& WRITE_LOCKOWNER ≠ 0 then some args.lockOwner else none
  return .write (ctxOf h) h.nodeid args.fh r.reader args.size args.offset owner
    (args.ioFlags &&& WRITE_CACHE ≠ 0) (args.ioFlags &&& WRITE_KILL_PRIV ≠ 0) args.flags

def releaseArgs : Parse FsCall := do
  let (args, _) ← r.readObj ReleaseIn
  let flush := decide (args.releaseFlags &&& RELEASE_FLUSH ≠ 0)
  let flockRelease := decide (args.releaseFlags &&& RELEASE_FLOCK_UNLOCK ≠ 0)
  return .release (ctxOf h) h.nodeid args.flags args.fh flush flockRelease
    (if flush || flockRelease then some args.lockOwner else none)

def fsyncArgs : Parse FsCall := do
  let (args, _) ← r.readObj FsyncIn
  return .fsync (ctxOf h) h.nodeid (args.fsyncFlags &&& 0x1 ≠ 0) args.fh

def fsyncdirArgs : Parse FsCall := do
  let (args, _) ← r.readObj FsyncIn
  return .fsyncdir (ctxOf h) h.nodeid (args.fsyncFlags &&& 0x1 ≠ 0) args.fh

def removexattrArgs : Parse FsCall := do
  return .removexattr (ctxOf h) h.nodeid (← readName h 0 r)

def flushArgs : Parse FsCall := do
  let (args, _) ← r.readObj FlushIn
  return .flush (ctxOf h) h.nodeid args.fh args.lockOwner

def opendirArgs : Parse FsCall := do
  let (args, _) ← r.readObj OpenIn
  return .opendir (ctxOf h) h.nodeid args.flags

def releasedirArgs : Parse FsCall := do
  let (args, _) ← r.readObj ReleaseIn
  return .releasedir (ctxOf h) h.nodeid args.flags args.fh

def accessArgs : Parse FsCall := do
  let (args, _) ← r.readObj AccessIn
  return .access (ctxOf h) h.nodeid args.mask

def fallocateArgs : Parse FsCall := do
  let (args, _) ← r.readObj FallocateIn
  return .fallocate (ctxOf h) h.nodeid args.fh args.mode args.offset args.length

def lseekArgs : Parse FsCall := do
  let (args, _) ← r.readObj LseekIn
  return .lseek (ctxOf h) h.nodeid args.fh args.offset args.whence

def copyfilerangeArgs : Parse FsCall := do
  let (args, _) ← r.readObj CopyfilerangeIn
  return .copyfilerange (ctxOf h) h.nodeid args.fhIn args.offIn args.nodeidOut args.fhOut
    args.offOut args.len args.flags

/-! ## 5. Requests that depend on the options -/

/-- The fixed part of SETXATTR and its length: two words longer with SETXATTR_EXT. -/
def setxattrFixed (options : FsOptions) : Parse ((SetxattrIn × Nat) × Input) :=
  if options.contains FsOptions.SETXATTR_EXT then do
    let (args, r) ← r.readObj SetxattrIn
    return ((args, ByteValued.size SetxattrIn), r)
  else do
    let (args, r) ← r.readObj SetxattrInCompat
    return ((⟨args.size, args.flags, 0, 0⟩, ByteValued.size SetxattrInCompat), r)

def setxattrArgs (options : FsOptions) : Parse FsCall := do
  let ((args, fixed), r) ← setxattrFixed r options
  let buf ← readRemaining h fixed r
  let (name, value) ← splitName buf
  if args.size ≠ .ofNat value.length then .err (.invalidXattrSize args.size value.length)
  else
    let name ← bytesToCstr name
    return .setxattr (ctxOf h) h.nodeid name value args.flags
      (args.setxattrFlags &&& SETXATTR_ACL_KILL_SGID)

/-- The name of a creating request with the zero at its end, and all that is behind the fixed
part. -/
def nameAndRest (fixed : Nat) : Parse (List UInt8 × List UInt8) := do
  let buf ← readRemaining h fixed r
  let name ← okOr (splitInclusive buf).head? .missingParameter
  return (name, buf)

def symlinkArgs (options : FsOptions) : Parse FsCall := do
  let buf ← readRemaining h 0 r
  let name ← okOr (splitInclusive buf).head? .missingParameter
  let linkname ← okOr (splitInclusive buf).tail.head? .missingParameter
  let extensions ← getExtensions options (name.length + linkname.length) buf
  let linkname ← bytesToCstr linkname
  let name ← bytesToCstr name
  return .symlink (ctxOf h) linkname h.nodeid name extensions

def mknodArgs (options : FsOptions) : Parse FsCall := do
  let (args, r) ← r.readObj MknodIn
  let (name, buf) ← nameAndRest h r (ByteValued.size MknodIn)
  let extensions ← getExtensions options name.length buf
  let name ← bytesToCstr name
  return .mknod (ctxOf h) h.nodeid name args.mode args.rdev args.umask extensions

def mkdirArgs (options : FsOptions) : Parse FsCall := do
  let (args, r) ← r.readObj MkdirIn
  let (name, buf) ← nameAndRest h r (ByteValued.size MkdirIn)
  let extensions ← getExtensions options name.length buf
  let name ← bytesToCstr name
  return .mkdir (ctxOf h) h.nodeid name args.mode args.umask extensions

def createArgs (options : FsOptions) : Parse FsCall := do
  let (args, r) ← r.readObj CreateIn
  let (name, buf) ← nameAndRest h r (ByteValued.size CreateIn)
  let extensions ← getExtensions options name.length buf
  let name ← bytesToCstr name
  return .create (ctxOf h) h.nodeid name args.mode (args.openFlags &&& OPEN_KILL_SUIDGID ≠ 0)
    args.flags args.umask extensions

end

end Server

end Virtiofsd
