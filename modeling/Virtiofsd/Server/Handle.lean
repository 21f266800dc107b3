/-
  # Serving messages (`server.rs`)

  `handleMessage` reads the header of a message and hands it to the handler of its opcode.
  Most handlers do the same: read the arguments, call the file system, and reply with what it
  returned or with its error (`regular`).  The others are READ, which leaves space for the
  header of its reply before it knows the reply, READDIR and READDIRPLUS (`Directory.lean`),
  the requests without a reply, and INIT.
-/
import Virtiofsd.Server.Decode

namespace Virtiofsd

open Lib

namespace Server

open Fuse

variable {I : Type} [DirectoryIterator I]

/-- The programs of the handlers. -/
abbrev HandleM (I : Type) := M (FsCall.Ans I)

/-- The result of a handler: the bytes of the reply. -/
abbrev Handled := Except Error Nat

/-! ## 1. Replies -/

/-- `reply_ok`, with the bytes of `out` and of `data`. -/
def replyOk (out data : List UInt8) (unique : UInt64) (w : Writer) : HandleM I Handled := do
  let len := OutHeader.size + out.length + data.length
  let header : OutHeader := { len := .ofNat len, error := 0, unique := unique }
  let write : HandleM I Writer := do
    let w ← w.writeAll header.asSlice
    let w ← w.writeAll out
    w.writeAll data
  match ← write.attempt with
  | .ok w => return .ok w.bytesConsumed
  | .error e => return .error (.encodeMessage e)

/-- What `getattr` and `setattr` reply with. -/
def attrBody (p : Fuse.Attr × Duration) : List UInt8 × List UInt8 :=
  (AttrOut.asSlice ⟨p.2.secs, p.2.nanos, p.1⟩, [])

def entryBody (e : Entry) : List UInt8 × List UInt8 := (e.toEntryOut.asSlice, [])

def openBody (p : Option UInt64 × OpenOptions) : List UInt8 × List UInt8 :=
  (OpenOut.asSlice ⟨p.1.getD 0, p.2⟩, [])

def countBody (n : Nat) : List UInt8 × List UInt8 := (SizeOut.asSlice ⟨.ofNat n⟩, [])

def xattrBody : XattrReply → List UInt8 × List UInt8
  | .value val => ([], val)
  | .count n => countBody n

/-- **The reply to a call**: the bytes of its `out` and of its `data`, or the error.  The calls
without a reply of this kind have an empty one. -/
def FsCall.reply : (c : FsCall) → c.Ans I → Except IoError (List UInt8 × List UInt8)
  | dir (.lookup _ _ _), r => r.map entryBody
  | getattr _ _ _, r => r.map attrBody
  | setattr _ _ _ _ _, r => r.map attrBody
  | readlink _ _, r => r.map fun linkname => ([], linkname)
  | symlink _ _ _ _ _, r => r.map entryBody
  | mknod _ _ _ _ _ _ _, r => r.map entryBody
  | mkdir _ _ _ _ _ _, r => r.map entryBody
  | link _ _ _ _, r => r.map entryBody
  | .open _ _ _ _, r => r.map openBody
  | opendir _ _ _, r => r.map openBody
  | create _ _ _ _ _ _ _ _, r => r.map fun p => ((entryBody p.1).1, (openBody p.2).1)
  | write _ _ _ _ _ _ _ _ _ _, r => r.map countBody
  | copyfilerange _ _ _ _ _ _ _ _ _, r => r.map countBody
  | statfs _ _, r => r.map fun st => (st.asSlice, [])
  | getxattr _ _ _ _, r => r.map xattrBody
  | listxattr _ _ _, r => r.map xattrBody
  | lseek _ _ _ _ _, r => r.map fun offset => (LseekOut.asSlice ⟨offset⟩, [])
  | unlink _ _ _, r => r.map fun _ => ([], [])
  | rmdir _ _ _, r => r.map fun _ => ([], [])
  | rename _ _ _ _ _ _, r => r.map fun _ => ([], [])
  | flush _ _ _ _, r => r.map fun _ => ([], [])
  | fsync _ _ _ _, r => r.map fun _ => ([], [])
  | fsyncdir _ _ _ _, r => r.map fun _ => ([], [])
  | fallocate _ _ _ _ _ _, r => r.map fun _ => ([], [])
  | release _ _ _ _ _ _ _, r => r.map fun _ => ([], [])
  | releasedir _ _ _ _, r => r.map fun _ => ([], [])
  | setxattr _ _ _ _ _ _, r => r.map fun _ => ([], [])
  | removexattr _ _ _, r => r.map fun _ => ([], [])
  | access _ _ _, r => r.map fun _ => ([], [])
  | syncfs _ _, r => r.map fun _ => ([], [])
  | _, _ => .ok ([], [])

/-- The arguments of a handler, or the error that the message ends with. -/
def withArgs {α : Type} (args : Parse α) (k : α → HandleM I Handled) : HandleM I Handled :=
  match args with
  | .ok a => k a
  | .err e => return .error e
  | .panic p => .panic p

/-- Call the file system and reply. -/
def callAndReply (c : FsCall) (unique : UInt64) (w : Writer) : HandleM I Handled := do
  let r ← call c
  match c.reply r with
  | .ok (out, data) => replyOk out data unique w
  | .error e => replyError e unique w

/-- **What most handlers do.** -/
def regular (args : Parse FsCall) (unique : UInt64) (w : Writer) : HandleM I Handled :=
  withArgs args fun c => callAndReply c unique w

/-- The handlers that depend on the options.  They are loaded before the arguments are read,
which is not seen from outside. -/
def regularWith (args : FsOptions → Parse FsCall) (unique : UInt64) (w : Writer) :
    HandleM I Handled := do
  let bits ← call FsCall.loadOptions
  regular (args (FsOptions.fromBitsTruncate bits)) unique w

/-! ## 2. The handlers -/

section

variable (h : MessageHeader) (r : Input) (w : Writer)

def lookup : HandleM I Handled := regular (lookupArgs h r) h.unique w

/-- `forget`: no reply. -/
def forget : HandleM I Handled :=
  withArgs (forgetArgs h r) fun c => do
    let _ ← call c
    return .ok 0

def getattr : HandleM I Handled := regular (getattrArgs h r) h.unique w
def setattr : HandleM I Handled := regular (setattrArgs h r) h.unique w
def readlink : HandleM I Handled := regular (.ok (.readlink (ctxOf h) h.nodeid)) h.unique w
def symlink : HandleM I Handled := regularWith (symlinkArgs h r) h.unique w
def mknod : HandleM I Handled := regularWith (mknodArgs h r) h.unique w
def mkdir : HandleM I Handled := regularWith (mkdirArgs h r) h.unique w
def unlink : HandleM I Handled := regular (unlinkArgs h r) h.unique w
def rmdir : HandleM I Handled := regular (rmdirArgs h r) h.unique w
def rename : HandleM I Handled := regular (renameArgs h r) h.unique w
def rename2 : HandleM I Handled := regular (rename2Args h r) h.unique w
def link : HandleM I Handled := regular (linkArgs h r) h.unique w
def «open» : HandleM I Handled := regular (openArgs h r) h.unique w

/-- **`read`.**  The file system writes behind the space for the header. -/
def read : HandleM I Handled :=
  withArgs (r.readObj IoIn) fun (args, _) =>
    let owner := if args.ioFlags &&& READ_LOCKOWNER ≠ 0 then some args.lockOwner else none
    match w.splitAt OutHeader.size with
    | none => .panic .splitHeader
    | some (w, dataWriter) => do
      let result : Except IoError Nat ← call (FsCall.read (ctxOf h) h.nodeid args.fh dataWriter
        args.size args.offset owner args.flags)
      match result with
      | .ok count =>
        let out : OutHeader :=
          { len := .ofNat (OutHeader.size + count), error := 0, unique := h.unique }
        match ← (Writer.writeAll w out.asSlice).attempt with
        | .ok _ => return .ok out.len.toNat
        | .error e => return .error (.encodeMessage e)
      | .error e => replyError e h.unique w

def write : HandleM I Handled := regular (writeArgs h r) h.unique w
def statfs : HandleM I Handled := regular (.ok (.statfs (ctxOf h) h.nodeid)) h.unique w
def release : HandleM I Handled := regular (releaseArgs h r) h.unique w
def fsync : HandleM I Handled := regular (fsyncArgs h r) h.unique w
def setxattr : HandleM I Handled := regularWith (setxattrArgs h r) h.unique w

/-- `getxattr`. -/
def getxattr : HandleM I Handled :=
  withArgs (r.readObj GetxattrIn) fun (args, r) =>
    withArgs (readRemaining h (ByteValued.size GetxattrIn) r) fun name =>
      if args.size.toNat > MAX_BUFFER_SIZE then replyError (.os ENOMEM) h.unique w
      else regular (do return .getxattr (ctxOf h) h.nodeid (← bytesToCstr name) args.size)
        h.unique w

/-- `listxattr`. -/
def listxattr : HandleM I Handled :=
  withArgs (r.readObj GetxattrIn) fun (args, _) =>
    if args.size.toNat > MAX_BUFFER_SIZE then replyError (.os ENOMEM) h.unique w
    else callAndReply (.listxattr (ctxOf h) h.nodeid args.size) h.unique w

def removexattr : HandleM I Handled := regular (removexattrArgs h r) h.unique w
def flush : HandleM I Handled := regular (flushArgs h r) h.unique w

/-- The features this server supports by default. -/
def supported : FsOptions :=
  FsOptions.ASYNC_READ ||| FsOptions.PARALLEL_DIROPS ||| FsOptions.BIG_WRITES |||
    FsOptions.AUTO_INVAL_DATA ||| FsOptions.ASYNC_DIO ||| FsOptions.HAS_IOCTL_DIR |||
    FsOptions.ATOMIC_O_TRUNC ||| FsOptions.MAX_PAGES ||| FsOptions.SUBMOUNTS |||
    FsOptions.INIT_EXT ||| FsOptions.CREATE_SUPP_GROUP ||| FsOptions.ALLOW_IDMAP

/-- The arguments of INIT: its fixed part, and the flags that follow with INIT_EXT. -/
def initArgs : Parse (InitInCompat × UInt32) := do
  let (args, r) ← r.readObj InitInCompat
  let options := FsOptions.fromBitsTruncate args.flags.toUInt64
  if options.contains FsOptions.INIT_EXT then
    let (ext, _) ← r.readObj InitInExt
    return (args, ext.flags2)
  else return (args, 0)

/-- The options of the guest. -/
def capableOf (args : InitInCompat × UInt32) : FsOptions :=
  FsOptions.fromBitsTruncate (args.2.toUInt64 <<< 32 ||| args.1.flags.toUInt64)

/-- What INIT enables. -/
def enabledOptions (capable want : FsOptions) : FsOptions := capable &&& (want ||| supported)

/-- `InitOut` of a session. -/
def initOut (args : InitInCompat) (enabled : FsOptions) (maxPages : Nat) : InitOut where
  major := KERNEL_VERSION
  minor := KERNEL_MINOR_VERSION
  maxReadahead := args.maxReadahead
  flags := enabled.toUInt32
  maxBackground := 0xffff
  congestionThreshold := 0xffff / 4 * 3
  maxWrite := .ofNat MAX_BUFFER_SIZE
  timeGran := 1
  maxPages := .ofNat maxPages
  flags2 := (enabled >>> 32).toUInt32

/-- The part of `init` behind the check of the version. -/
def negotiate (pageSize : Nat) (args : InitInCompat × UInt32) : HandleM I Handled := do
  let capable := capableOf args
  if pageSize = 0 then .panic .maxPages
  else
    let maxPages := (MAX_BUFFER_SIZE - 1) / pageSize + 1
    let result : Except IoError FsOptions ← call (FsCall.init capable)
    match result with
    | .ok want =>
      let enabled := enabledOptions capable want
      let _ ← call (FsCall.storeOptions enabled)
      if maxPages ≥ 2 ^ 16 then .panic .maxPages
      else replyOk (initOut args.1 enabled maxPages).asSlice [] h.unique w
    | .error e => replyError e h.unique w

/-- **`init`.**  `pageSize` is that of the host. -/
def init (pageSize : Nat) : HandleM I Handled :=
  withArgs (initArgs r) fun args =>
    if args.1.major < KERNEL_VERSION then replyError (.os EPROTO) h.unique w
    else if args.1.major > KERNEL_VERSION then
      -- Wait for the kernel to reply back with a 7.X version.
      replyOk (InitOut.asSlice { major := KERNEL_VERSION, minor := KERNEL_MINOR_VERSION }) []
        h.unique w
    else if args.1.minor < MIN_KERNEL_MINOR_VERSION then replyError (.os EPROTO) h.unique w
    else negotiate h w pageSize args

def opendir : HandleM I Handled := regular (opendirArgs h r) h.unique w

/-- A program with calls for directories only, among all calls. -/
def ofDirectory {α : Type} (p : M (DirectoryCall.Ans I) α) : HandleM I α :=
  p.mapAct
    (fun
      | .copy addr bytes => .copy addr bytes
      | .fs c => .fs (.dir c))
    (fun
      | .copy _ _, r => r
      | .fs _, r => r) id

def handleReaddir : HandleM I Handled := ofDirectory (readdir h.toInHeader r.bytes w)
def handleReaddirplus : HandleM I Handled := ofDirectory (readdirplus h.toInHeader r.bytes w)
def releasedir : HandleM I Handled := regular (releasedirArgs h r) h.unique w
def fsyncdir : HandleM I Handled := regular (fsyncdirArgs h r) h.unique w

/-- `getlk`, `setlk`, `setlkw`, `bmap`, `ioctl`, `poll` and `notify_reply`. -/
def notSupported (op : Unsupported) : HandleM I Handled := do
  let result : Except IoError Unit ← call (FsCall.unsupported op)
  match result with
  | .error e => replyError e h.unique w
  | .ok () => return .ok 0

def access : HandleM I Handled := regular (accessArgs h r) h.unique w
def create : HandleM I Handled := regularWith (createArgs h r) h.unique w

/-- **`destroy`**: no reply.  Also called when the device is reset. -/
def destroy : HandleM I Handled := do
  let _ ← call FsCall.destroy
  let _ ← call (FsCall.storeOptions 0)
  return .ok 0

/-- The requests of BATCH_FORGET. -/
def forgetRequests : Nat → Input → Parse (List (UInt64 × UInt64))
  | 0, _ => return []
  | n + 1, r => do
    let (one, r) ← r.readObj ForgetOne
    let rest ← forgetRequests n r
    return (one.nodeid, one.nlookup) :: rest

/-- **`batch_forget`**: no reply, unless there are too many requests. -/
def batchForget : HandleM I Handled :=
  withArgs (r.readObj BatchForgetIn) fun (args, r) =>
    if args.count.toNat * ByteValued.size ForgetOne > MAX_BUFFER_SIZE then
      replyError (.os ENOMEM) h.unique w
    else withArgs (forgetRequests args.count.toNat r) fun requests => do
      let _ ← call (FsCall.batchForget (ctxOf h) requests)
      return .ok 0

def fallocate : HandleM I Handled := regular (fallocateArgs h r) h.unique w
def lseek : HandleM I Handled := regular (lseekArgs h r) h.unique w
def copyfilerange : HandleM I Handled := regular (copyfilerangeArgs h r) h.unique w
def syncfs : HandleM I Handled := regular (.ok (.syncfs (ctxOf h) h.nodeid)) h.unique w

/-- `setupmapping` and `removemapping`. -/
def noMapping : HandleM I Handled := replyError (.os ENOSYS) h.unique w

/-- `tmpfile`. -/
def tmpfile : HandleM I Handled := do
  let result : Except IoError Unit ← call (FsCall.unsupported .tmpfile)
  match result with
  | .error e => replyError e h.unique w
  | .ok () => .panic .unsupportedOperation

/-! ## 3. Dispatch -/

/-- The handler of an opcode. -/
def handle (pageSize : Nat) : Opcode → HandleM I Handled
  | .lookup => lookup h r w
  | .forget => forget h r
  | .getattr => getattr h r w
  | .setattr => setattr h r w
  | .readlink => readlink h w
  | .symlink => symlink h r w
  | .mknod => mknod h r w
  | .mkdir => mkdir h r w
  | .unlink => unlink h r w
  | .rmdir => rmdir h r w
  | .rename => rename h r w
  | .link => link h r w
  | .open => «open» h r w
  | .read => read h r w
  | .write => write h r w
  | .statfs => statfs h w
  | .release => release h r w
  | .fsync => fsync h r w
  | .setxattr => setxattr h r w
  | .getxattr => getxattr h r w
  | .listxattr => listxattr h r w
  | .removexattr => removexattr h r w
  | .flush => flush h r w
  | .init => init h r w pageSize
  | .opendir => opendir h r w
  | .readdir => handleReaddir h r w
  | .releasedir => releasedir h r w
  | .fsyncdir => fsyncdir h r w
  | .getlk => notSupported h w .getlk
  | .setlk => notSupported h w .setlk
  | .setlkw => notSupported h w .setlkw
  | .access => access h r w
  | .create => create h r w
  | .interrupt => return .ok 0
  | .bmap => notSupported h w .bmap
  | .destroy => destroy
  | .ioctl => notSupported h w .ioctl
  | .poll => notSupported h w .poll
  | .notifyReply => notSupported h w .notifyReply
  | .batchForget => batchForget h r w
  | .fallocate => fallocate h r w
  | .readdirplus => handleReaddirplus h r w
  | .rename2 => rename2 h r w
  | .lseek => lseek h r w
  | .copyFileRange => copyfilerange h r w
  | .setupMapping => noMapping h w
  | .removeMapping => noMapping h w
  | .syncfs => syncfs h w
  | .tmpFile => tmpfile h w

end

/-- `MAX_BUFFER_SIZE + FUSE_BUFFER_HEADER_SIZE`. -/
def maxMessageLen : Nat := MAX_BUFFER_SIZE + 0x1000

/-- **`handle_message`.** -/
def handleMessage (pageSize : Nat) (r : Input) (w : Writer) : HandleM I Handled :=
  withArgs (r.readObj MessageHeader) fun (h, r) =>
    if h.len.toNat > maxMessageLen then replyError (.os ENOMEM) h.unique w
    else
      match Opcode.tryFrom h.opcode with
      | some opcode => handle h r w pageSize opcode
      | none => replyError (.os ENOSYS) h.unique w

end Server

end Virtiofsd
