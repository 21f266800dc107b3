/-
  # Messages of the FUSE protocol (`fuse.rs`)

  The fixed parts of requests and replies.  Requests are read as they are, so each structure
  is `ByteValued`; of the replies only the bytes are needed.
-/
import Virtiofsd.Server.Extensions

namespace Virtiofsd

open Lib

/-! ## 1. Numbers -/

namespace Fuse

def KERNEL_VERSION : UInt32 := 7
def KERNEL_MINOR_VERSION : UInt32 := 38
def MIN_KERNEL_MINOR_VERSION : UInt32 := 27

def FATTR_MODE : UInt32 := (1 : UInt32) <<< 0
def FATTR_UID : UInt32 := (1 : UInt32) <<< 1
def FATTR_GID : UInt32 := (1 : UInt32) <<< 2
def FATTR_SIZE : UInt32 := (1 : UInt32) <<< 3
def FATTR_ATIME : UInt32 := (1 : UInt32) <<< 4
def FATTR_MTIME : UInt32 := (1 : UInt32) <<< 5
def FATTR_FH : UInt32 := (1 : UInt32) <<< 6
def FATTR_ATIME_NOW : UInt32 := (1 : UInt32) <<< 7
def FATTR_MTIME_NOW : UInt32 := (1 : UInt32) <<< 8
def FATTR_KILL_SUIDGID : UInt32 := (1 : UInt32) <<< 11

def OPEN_KILL_SUIDGID : UInt32 := (1 : UInt32) <<< 0
def RELEASE_FLUSH : UInt32 := (1 : UInt32) <<< 0
def RELEASE_FLOCK_UNLOCK : UInt32 := (1 : UInt32) <<< 1
def GETATTR_FH : UInt32 := (1 : UInt32) <<< 0
def WRITE_CACHE : UInt32 := (1 : UInt32) <<< 0
def WRITE_LOCKOWNER : UInt32 := (1 : UInt32) <<< 1
def WRITE_KILL_PRIV : UInt32 := (1 : UInt32) <<< 2
def READ_LOCKOWNER : UInt32 := (1 : UInt32) <<< 1
def SETXATTR_ACL_KILL_SGID : UInt32 := (1 : UInt32) <<< 0

/-- The flags of RENAME2 that are passed on: NOREPLACE, EXCHANGE and WHITEOUT. -/
def RENAME_FLAGS : UInt32 := 7

end Fuse

/-- The bits that `FsOptions` has a name for. -/
def FsOptions.ALL : FsOptions := 0x1 ||| 0x2 ||| 0x4 ||| 0x8 ||| 0x10 ||| 0x20 ||| 0x40 ||| 0x80 |||
  0x100 ||| 0x200 ||| 0x400 ||| 0x800 ||| 0x1000 ||| 0x2000 ||| 0x4000 ||| 0x8000 ||| 0x10000 |||
  0x20000 ||| 0x40000 ||| 0x80000 ||| 0x100000 ||| 0x200000 ||| 0x400000 ||| 0x800000 |||
  0x1000000 ||| 0x2000000 ||| FsOptions.SUBMOUNTS ||| FsOptions.HANDLE_KILLPRIV_V2 |||
  FsOptions.SETXATTR_EXT ||| FsOptions.INIT_EXT ||| 0x80000000 ||| FsOptions.SECURITY_CTX |||
  0x200000000 ||| FsOptions.CREATE_SUPP_GROUP ||| FsOptions.DIRECT_IO_ALLOW_MMAP |||
  FsOptions.ALLOW_IDMAP

/-- `FsOptions::from_bits_truncate`. -/
def FsOptions.fromBitsTruncate (bits : UInt64) : FsOptions := bits &&& FsOptions.ALL

namespace Fuse

/-- `Opcode`. -/
inductive Opcode where
  | lookup | forget | getattr | setattr | readlink | symlink | mknod | mkdir | unlink | rmdir
  | rename | link | open | read | write | statfs | release | fsync | setxattr | getxattr
  | listxattr | removexattr | flush | init | opendir | readdir | releasedir | fsyncdir | getlk
  | setlk | setlkw | access | create | interrupt | bmap | destroy | ioctl | poll | notifyReply
  | batchForget | fallocate | readdirplus | rename2 | lseek | copyFileRange | setupMapping
  | removeMapping | syncfs | tmpFile
  deriving DecidableEq

/-- The numbers of the opcodes. -/
def Opcode.table : List (UInt32 × Opcode) :=
  [(1, .lookup), (2, .forget), (3, .getattr), (4, .setattr), (5, .readlink), (6, .symlink),
    (8, .mknod), (9, .mkdir), (10, .unlink), (11, .rmdir), (12, .rename), (13, .link), (14, .open),
    (15, .read), (16, .write), (17, .statfs), (18, .release), (20, .fsync), (21, .setxattr),
    (22, .getxattr), (23, .listxattr), (24, .removexattr), (25, .flush), (26, .init),
    (27, .opendir), (28, .readdir), (29, .releasedir), (30, .fsyncdir), (31, .getlk), (32, .setlk),
    (33, .setlkw), (34, .access), (35, .create), (36, .interrupt), (37, .bmap), (38, .destroy),
    (39, .ioctl), (40, .poll), (41, .notifyReply), (42, .batchForget), (43, .fallocate),
    (44, .readdirplus), (45, .rename2), (46, .lseek), (47, .copyFileRange), (48, .setupMapping),
    (49, .removeMapping), (50, .syncfs), (51, .tmpFile)]

/-- `Opcode::try_from`. -/
def Opcode.tryFrom (value : UInt32) : Option Opcode := Opcode.table.lookup value

/-! ## 2. Requests -/

/-- `InHeader` with all its fields. -/
structure MessageHeader extends InHeader where
  len : UInt32
  opcode : UInt32
  extlenAndPadding : UInt32

/-- The fields in the order in which they are sent; `total_extlen` and the padding behind it
are one word. -/
instance : ByteValued MessageHeader :=
  .ofEquiv (.mk (fun h => (h.len, h.opcode, h.unique, h.nodeid, h.uid, h.gid, h.pid,
      h.extlenAndPadding))
    fun p => ⟨⟨p.2.2.1, p.2.2.2.1, p.2.2.2.2.1, p.2.2.2.2.2.1, p.2.2.2.2.2.2.1⟩, p.1, p.2.1,
      p.2.2.2.2.2.2.2⟩)

structure ForgetIn where
  nlookup : UInt64

instance : ByteValued ForgetIn :=
  .ofEquiv (.mk (fun m => m.nlookup) fun p => ⟨p⟩)

structure ForgetOne where
  nodeid : UInt64
  nlookup : UInt64

instance : ByteValued ForgetOne :=
  .ofEquiv (.mk (fun m => (m.nodeid, m.nlookup)) fun p => ⟨p.1, p.2⟩)

structure BatchForgetIn where
  count : UInt32
  dummy : UInt32

instance : ByteValued BatchForgetIn :=
  .ofEquiv (.mk (fun m => (m.count, m.dummy)) fun p => ⟨p.1, p.2⟩)

structure GetattrIn where
  flags : UInt32
  dummy : UInt32
  fh : UInt64

instance : ByteValued GetattrIn :=
  .ofEquiv (.mk (fun m => (m.flags, m.dummy, m.fh)) fun p => ⟨p.1, p.2.1, p.2.2⟩)

structure MknodIn where
  mode : UInt32
  rdev : UInt32
  umask : UInt32
  padding : UInt32

instance : ByteValued MknodIn :=
  .ofEquiv (.mk (fun m => (m.mode, m.rdev, m.umask, m.padding))
    fun p => ⟨p.1, p.2.1, p.2.2.1, p.2.2.2⟩)

structure MkdirIn where
  mode : UInt32
  umask : UInt32

instance : ByteValued MkdirIn :=
  .ofEquiv (.mk (fun m => (m.mode, m.umask)) fun p => ⟨p.1, p.2⟩)

structure RenameIn where
  newdir : UInt64

instance : ByteValued RenameIn :=
  .ofEquiv (.mk (fun m => m.newdir) fun p => ⟨p⟩)

structure Rename2In where
  newdir : UInt64
  flags : UInt32
  padding : UInt32

instance : ByteValued Rename2In :=
  .ofEquiv (.mk (fun m => (m.newdir, m.flags, m.padding)) fun p => ⟨p.1, p.2.1, p.2.2⟩)

structure LinkIn where
  oldnodeid : UInt64

instance : ByteValued LinkIn :=
  .ofEquiv (.mk (fun m => m.oldnodeid) fun p => ⟨p⟩)

structure SetattrIn where
  valid : UInt32
  padding : UInt32
  fh : UInt64
  size : UInt64
  lockOwner : UInt64
  atime : UInt64
  mtime : UInt64
  ctime : UInt64
  atimensec : UInt32
  mtimensec : UInt32
  ctimensec : UInt32
  mode : UInt32
  unused4 : UInt32
  uid : UInt32
  gid : UInt32
  unused5 : UInt32

instance : ByteValued SetattrIn :=
  .ofEquiv ⟨fun m => (m.valid, m.padding, m.fh, m.size, m.lockOwner, m.atime, m.mtime, m.ctime,
      m.atimensec, m.mtimensec, m.ctimensec, m.mode, m.unused4, m.uid, m.gid, m.unused5),
    fun (valid, padding, fh, size, lockOwner, atime, mtime, ctime, atimensec, mtimensec, ctimensec,
      mode, unused4, uid, gid, unused5) =>
      ⟨valid, padding, fh, size, lockOwner, atime, mtime, ctime, atimensec, mtimensec, ctimensec,
        mode, unused4, uid, gid, unused5⟩,
    fun _ => rfl, fun _ => rfl⟩

structure OpenIn where
  flags : UInt32
  openFlags : UInt32

instance : ByteValued OpenIn :=
  .ofEquiv (.mk (fun m => (m.flags, m.openFlags)) fun p => ⟨p.1, p.2⟩)

structure CreateIn where
  flags : UInt32
  mode : UInt32
  umask : UInt32
  openFlags : UInt32

instance : ByteValued CreateIn :=
  .ofEquiv (.mk (fun m => (m.flags, m.mode, m.umask, m.openFlags))
    fun p => ⟨p.1, p.2.1, p.2.2.1, p.2.2.2⟩)

structure ReleaseIn where
  fh : UInt64
  flags : UInt32
  releaseFlags : UInt32
  lockOwner : UInt64

instance : ByteValued ReleaseIn :=
  .ofEquiv (.mk (fun m => (m.fh, m.flags, m.releaseFlags, m.lockOwner))
    fun p => ⟨p.1, p.2.1, p.2.2.1, p.2.2.2⟩)

structure FlushIn where
  fh : UInt64
  unused : UInt32
  padding : UInt32
  lockOwner : UInt64

instance : ByteValued FlushIn :=
  .ofEquiv (.mk (fun m => (m.fh, m.unused, m.padding, m.lockOwner))
    fun p => ⟨p.1, p.2.1, p.2.2.1, p.2.2.2⟩)

/-- `ReadIn` and `WriteIn`, which have one layout: `ioFlags` are the flags of the request,
`flags` those of the open file. -/
structure IoIn where
  fh : UInt64
  offset : UInt64
  size : UInt32
  ioFlags : UInt32
  lockOwner : UInt64
  flags : UInt32
  padding : UInt32

instance : ByteValued IoIn :=
  .ofEquiv ⟨fun m => (m.fh, m.offset, m.size, m.ioFlags, m.lockOwner, m.flags, m.padding),
    fun (fh, offset, size, ioFlags, lockOwner, flags, padding) =>
      ⟨fh, offset, size, ioFlags, lockOwner, flags, padding⟩, fun _ => rfl, fun _ => rfl⟩

structure FsyncIn where
  fh : UInt64
  fsyncFlags : UInt32
  padding : UInt32

instance : ByteValued FsyncIn :=
  .ofEquiv (.mk (fun m => (m.fh, m.fsyncFlags, m.padding)) fun p => ⟨p.1, p.2.1, p.2.2⟩)

structure SetxattrIn where
  size : UInt32
  flags : UInt32
  setxattrFlags : UInt32
  padding : UInt32

instance : ByteValued SetxattrIn :=
  .ofEquiv (.mk (fun m => (m.size, m.flags, m.setxattrFlags, m.padding))
    fun p => ⟨p.1, p.2.1, p.2.2.1, p.2.2.2⟩)

structure SetxattrInCompat where
  size : UInt32
  flags : UInt32

instance : ByteValued SetxattrInCompat :=
  .ofEquiv (.mk (fun m => (m.size, m.flags)) fun p => ⟨p.1, p.2⟩)

structure GetxattrIn where
  size : UInt32
  padding : UInt32

instance : ByteValued GetxattrIn :=
  .ofEquiv (.mk (fun m => (m.size, m.padding)) fun p => ⟨p.1, p.2⟩)

structure AccessIn where
  mask : UInt32
  padding : UInt32

instance : ByteValued AccessIn :=
  .ofEquiv (.mk (fun m => (m.mask, m.padding)) fun p => ⟨p.1, p.2⟩)

structure InitInCompat where
  major : UInt32
  minor : UInt32
  maxReadahead : UInt32
  flags : UInt32

instance : ByteValued InitInCompat :=
  .ofEquiv (.mk (fun m => (m.major, m.minor, m.maxReadahead, m.flags))
    fun p => ⟨p.1, p.2.1, p.2.2.1, p.2.2.2⟩)

/-- `InitInExt`; `unused` are its 11 words without a meaning. -/
structure InitInExt where
  flags2 : UInt32
  unused : Bytes 44

instance : ByteValued InitInExt :=
  .ofEquiv (.mk (fun m => (m.flags2, m.unused)) fun p => ⟨p.1, p.2⟩)

structure FallocateIn where
  fh : UInt64
  offset : UInt64
  length : UInt64
  mode : UInt32
  padding : UInt32

instance : ByteValued FallocateIn :=
  .ofEquiv (.mk (fun m => (m.fh, m.offset, m.length, m.mode, m.padding))
    fun p => ⟨p.1, p.2.1, p.2.2.1, p.2.2.2.1, p.2.2.2.2⟩)

structure LseekIn where
  fh : UInt64
  offset : UInt64
  whence : UInt32
  padding : UInt32

instance : ByteValued LseekIn :=
  .ofEquiv (.mk (fun m => (m.fh, m.offset, m.whence, m.padding))
    fun p => ⟨p.1, p.2.1, p.2.2.1, p.2.2.2⟩)

structure CopyfilerangeIn where
  fhIn : UInt64
  offIn : UInt64
  nodeidOut : UInt64
  fhOut : UInt64
  offOut : UInt64
  len : UInt64
  flags : UInt64

instance : ByteValued CopyfilerangeIn :=
  .ofEquiv ⟨fun m => (m.fhIn, m.offIn, m.nodeidOut, m.fhOut, m.offOut, m.len, m.flags),
    fun (fhIn, offIn, nodeidOut, fhOut, offOut, len, flags) =>
      ⟨fhIn, offIn, nodeidOut, fhOut, offOut, len, flags⟩, fun _ => rfl, fun _ => rfl⟩

/-! ## 3. Replies -/

/-- `AttrOut`. -/
structure AttrOut where
  attrValid : UInt64
  attrValidNsec : UInt32
  attr : Attr

def AttrOut.asSlice (a : AttrOut) : List UInt8 :=
  fieldBytes ([(8, a.attrValid.toNat), (4, a.attrValidNsec.toNat), (4, 0)] ++ a.attr.fields)

/-- `OpenOut`. -/
structure OpenOut where
  fh : UInt64
  openFlags : UInt32

def OpenOut.asSlice (o : OpenOut) : List UInt8 :=
  fieldBytes [(8, o.fh.toNat), (4, o.openFlags.toNat), (4, 0)]

/-- `WriteOut` and `GetxattrOut`, which have one layout. -/
structure SizeOut where
  size : UInt32

def SizeOut.asSlice (o : SizeOut) : List UInt8 := fieldBytes [(4, o.size.toNat), (4, 0)]

/-- `LseekOut`. -/
structure LseekOut where
  offset : UInt64

def LseekOut.asSlice (o : LseekOut) : List UInt8 := fieldBytes [(8, o.offset.toNat)]

/-- `Kstatfs`. -/
structure Kstatfs where
  blocks : UInt64
  bfree : UInt64
  bavail : UInt64
  files : UInt64
  ffree : UInt64
  bsize : UInt32
  namelen : UInt32
  frsize : UInt32

def Kstatfs.asSlice (s : Kstatfs) : List UInt8 :=
  fieldBytes [(8, s.blocks.toNat), (8, s.bfree.toNat), (8, s.bavail.toNat), (8, s.files.toNat),
    (8, s.ffree.toNat), (4, s.bsize.toNat), (4, s.namelen.toNat), (4, s.frsize.toNat), (4, 0),
    (24, 0)]

/-- `InitOut`; its 7 unused words are zero. -/
structure InitOut where
  major : UInt32
  minor : UInt32
  maxReadahead : UInt32 := 0
  flags : UInt32 := 0
  maxBackground : UInt16 := 0
  congestionThreshold : UInt16 := 0
  maxWrite : UInt32 := 0
  timeGran : UInt32 := 0
  maxPages : UInt16 := 0
  mapAlignment : UInt16 := 0
  flags2 : UInt32 := 0

def InitOut.asSlice (o : InitOut) : List UInt8 :=
  fieldBytes [(4, o.major.toNat), (4, o.minor.toNat), (4, o.maxReadahead.toNat),
    (4, o.flags.toNat), (2, o.maxBackground.toNat), (2, o.congestionThreshold.toNat),
    (4, o.maxWrite.toNat), (4, o.timeGran.toNat), (2, o.maxPages.toNat),
    (2, o.mapAlignment.toNat), (4, o.flags2.toNat), (28, 0)]

end Fuse

end Virtiofsd
