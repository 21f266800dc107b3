/-
  # The read-only share on a Darwin host

  The daemon also runs on macOS, where `open(2)` has other flag values and no `O_PATH`.  The
  guest is a Linux one all the same, so its flags are translated (`open_flags.rs`), and the
  path from OPEN to the host's `open(2)` is modelled here with Darwin's values.  In all other
  requests of a read-only share only the flags the daemon chooses itself differ: they are the
  Linux ones spelled in Darwin's values (`onDarwin`).  Capabilities and file handles do not
  exist on Darwin.
-/
import Virtiofsd.Passthrough.Requests

namespace Virtiofsd

open Lib

/-! ## 1. Darwin's flags -/

namespace Darwin

def O_ACCMODE : UInt32 := 0x3
def O_RDONLY : UInt32 := 0x0
def O_WRONLY : UInt32 := 0x1
def O_RDWR : UInt32 := 0x2
def O_NONBLOCK : UInt32 := 0x4
def O_APPEND : UInt32 := 0x8
def O_SYNC : UInt32 := 0x80
def O_NOFOLLOW : UInt32 := 0x100
def O_CREAT : UInt32 := 0x200
def O_TRUNC : UInt32 := 0x400
def O_EXCL : UInt32 := 0x800
def O_NOCTTY : UInt32 := 0x20000
def O_DIRECTORY : UInt32 := 0x100000
def O_SYMLINK : UInt32 := 0x200000
def O_DSYNC : UInt32 := 0x400000
def O_CLOEXEC : UInt32 := 0x1000000

end Darwin

/-- Linux flags that only the translation to Darwin reads. -/
def O_NOCTTY : UInt32 := 0o400
def O_DSYNC : UInt32 := 0o10000
def O_SYNC : UInt32 := 0o4010000

/-- `HostOpenFlags`. -/
structure HostOpenFlags where
  flags : UInt32
  nocache : Bool
  deriving DecidableEq

/-- Set the Darwin flag of a pair if the Linux flag is there as a whole. -/
def addFlag (linuxFlags : UInt32) (flags : UInt32) (pair : UInt32 × UInt32) : UInt32 :=
  if linuxFlags &&& pair.1 = pair.1 then flags ||| pair.2 else flags

/-- **`linux_to_darwin_open_flags`.**  The fourth access mode is read as read-only. -/
def linuxToDarwinOpenFlags (linuxFlags : UInt32) (guest : GuestArch) : HostOpenFlags :=
  let arch := guest.flags
  let accmode := linuxFlags &&& O_ACCMODE
  let flags :=
    if accmode = O_RDONLY then Darwin.O_RDONLY
    else if accmode = O_WRONLY then Darwin.O_WRONLY
    else if accmode = O_RDWR then Darwin.O_RDWR
    else Darwin.O_RDONLY
  let table := [(O_CREAT, Darwin.O_CREAT), (O_EXCL, Darwin.O_EXCL), (O_NOCTTY, Darwin.O_NOCTTY),
    (O_TRUNC, Darwin.O_TRUNC), (O_APPEND, Darwin.O_APPEND), (O_NONBLOCK, Darwin.O_NONBLOCK),
    (O_DSYNC, Darwin.O_DSYNC), (O_CLOEXEC, Darwin.O_CLOEXEC),
    (arch.directory, Darwin.O_DIRECTORY), (arch.nofollow, Darwin.O_NOFOLLOW)]
  let flags := table.foldl (addFlag linuxFlags) flags
  ⟨addFlag linuxFlags flags (O_SYNC, Darwin.O_SYNC), decide (linuxFlags &&& arch.direct ≠ 0)⟩

/-! ## 2. Opening files on Darwin -/

namespace Darwin

/-- The configuration `PassthroughFs::new` leaves: there are no file handles. -/
def config (cfg : Config) : Config := { cfg with inodeFileHandles := .never }

/-- The flags `open_inode` opens with; `O_DIRECT` is 0 here. -/
def openInodeFlags (writeback : Bool) (flags : UInt32) : UInt32 :=
  let flags := if writeback ∧ flags &&& O_ACCMODE = O_WRONLY then
    (flags &&& ~~~O_ACCMODE) ||| O_RDWR else flags
  let flags := if writeback then flags &&& ~~~O_APPEND else flags
  flags ||| O_CLOEXEC

/-- `open_inode`. -/
def openInode (data : InodeData) (flags : UInt32) : NeutralM Fd := do
  let writeback : Bool ← query (.load .writeback)
  data.openFile (openInodeFlags writeback flags)

/-- `apply_nocache`. -/
def applyNocache (cfg : Config) (fd : Fd) (regular nocache : Bool) : NeutralM Unit := do
  if !nocache || !cfg.allowDirectIo || !regular then return ()
  libcOk (.setNocache fd)

/-- `HandleMigrationInfo::new`. -/
def handleMigrationFlags (flags : UInt32) : UInt32 := flags &&& ~~~(O_CREAT ||| O_EXCL ||| O_TRUNC)

/-- **`do_open`.**  `O_NOATIME` is 0 and there is no capability to drop. -/
def doOpen (cfg : Config) (inode : Inode) (hostFlags : HostOpenFlags) :
    NeutralM (Option Handle × OpenOptions) := do
  let flags := hostFlags.flags &&& ~~~O_APPEND
  let data ← PassthroughFs.getInode inode
  let fd ← openInode data.data flags
  applyNocache cfg fd (fileType data.data.mode == S_IFREG) hostFlags.nocache
  if flags &&& O_TRUNC ≠ 0 then
    PassthroughFs.clearFileCapabilities cfg fd (fileType data.data.mode) false
  let handle ← query .fetchAddHandle
  allocateFd
  query (.insertHandle handle ⟨inode, .ok fd, fileType data.data.mode, handleMigrationFlags flags⟩)
  return (some handle, PassthroughFs.openOptions cfg
    (if flags &&& O_DIRECTORY ≠ 0 then Virtiofsd.O_DIRECTORY else 0))

/-- `open`. -/
def openFile (cfg : Config) (inode : Inode) (flags : UInt32) :
    NeutralM (Option Handle × OpenOptions) :=
  doOpen cfg inode (linuxToDarwinOpenFlags flags cfg.guestArch)

/-- `opendir`. -/
def opendir (cfg : Config) (inode : Inode) (flags : UInt32) :
    NeutralM (Option Handle × OpenOptions) :=
  let hostFlags := linuxToDarwinOpenFlags flags cfg.guestArch
  doOpen cfg inode { hostFlags with flags := hostFlags.flags ||| O_DIRECTORY }

end Darwin

/-! ## 3. The daemon's own flags -/

/-- A word of flags the daemon has put together, in Darwin's values: `O_PATH`, `O_DIRECT`,
`O_NOATIME` and `O_TMPFILE` are 0. -/
def darwinWord (flags : UInt32) : UInt32 :=
  [(O_CREAT, Darwin.O_CREAT), (O_EXCL, Darwin.O_EXCL), (O_TRUNC, Darwin.O_TRUNC),
    (O_APPEND, Darwin.O_APPEND), (O_NONBLOCK, Darwin.O_NONBLOCK),
    (O_DIRECTORY, Darwin.O_DIRECTORY), (O_NOFOLLOW, Darwin.O_NOFOLLOW),
    (O_CLOEXEC, Darwin.O_CLOEXEC)].foldl (addFlag flags) (flags &&& O_ACCMODE)

/-- A call with its flags in Darwin's values.  `open_relative_to` has `O_SYMLINK` for
`O_NOFOLLOW`. -/
def HostCall.onDarwin : HostCall → HostCall
  | .openat dir name flags mode => .openat dir name
      ((darwinWord flags &&& ~~~Darwin.O_NOFOLLOW) ||| Darwin.O_SYMLINK ||| Darwin.O_CLOEXEC) mode
  | .openRoot flags => .openRoot (darwinWord flags)
  | .reopen fd flags => .reopen fd (darwinWord flags)
  | .openByHandle h flags => .openByHandle h (darwinWord flags)
  | c => c

theorem HostCall.onDarwin_ans (c : HostCall) : c.onDarwin.Ans = c.Ans := by
  cases c <;> rfl

def NeutralAct.onDarwin : NeutralAct → NeutralAct
  | .host c => .host c.onDarwin
  | .query q => .query q

def NeutralAct.onDarwinAns : (a : NeutralAct) → a.onDarwin.Ans → a.Ans
  | .host c, r => cast c.onDarwin_ans r
  | .query _, r => r

def Act.onDarwin : Act → Act
  | .neutral a => .neutral a.onDarwin
  | .ref r => .ref r

def Act.onDarwinAns : (a : Act) → a.onDarwin.Ans → a.Ans
  | .neutral a, r => a.onDarwinAns r
  | .ref _, r => r

def SessionAct.onDarwin : SessionAct → SessionAct
  | .act a => .act a.onDarwin
  | .clear => .clear
  | .newInode cell => .newInode cell
  | .storeRefcount r n => .storeRefcount r n

def SessionAct.onDarwinAns : (a : SessionAct) → a.onDarwin.Ans → a.Ans
  | .act a, r => a.onDarwinAns r
  | .clear, r => r
  | .newInode _, r => r
  | .storeRefcount _ _, r => r

/-- A request whose open flags are all the daemon's own. -/
def FsM.onDarwin {α : Type} (p : FsM α) : FsM α := Prog.mapAct Act.onDarwin Act.onDarwinAns id p

/-- The same for a program that starts or ends a session. -/
def SessionM.onDarwin {α : Type} (p : SessionM α) : SessionM α :=
  Prog.mapAct SessionAct.onDarwin SessionAct.onDarwinAns id p

/-! ## 4. `PassthroughFsRo` on both hosts -/

/-- The kinds of host, by what they make of `O_PATH`. -/
inductive HostKind where
  | linux
  | darwin
  deriving DecidableEq

namespace PassthroughFsRo

/-- `HOST_KEEPS_O_PATH`. -/
def hostKeepsOPath : HostKind → Bool
  | .linux => true
  | .darwin => false

/-- **`read_only_open`.** -/
def readOnlyOpenOn (hostKeepsOPath : Bool) (flags : UInt32) : Except IoError ReadOnlyOpen :=
  if 0x80000000 ≤ flags then .error (.custom .invalidInput "out of range integral type conversion")
  else if hostKeepsOPath ∧ flags &&& O_PATH ≠ 0 then .ok (.open flags)
  else if flags &&& O_ACCMODE ≠ O_RDONLY then .error .erofs
  else if flags &&& O_EXCL ≠ 0 then .error .erofs
  else if flags &&& O_TMPFILE_BIT ≠ 0 then .error .einval
  else if flags &&& O_TRUNC ≠ 0 then .error .einval
  else if flags &&& O_CREAT = 0 then .ok (.open flags)
  else .ok (.openExisting (flags &&& ~~~O_CREAT))

/-- On Linux it is the `readOnlyOpen` of the Linux model. -/
theorem readOnlyOpenOn_true (flags : UInt32) : readOnlyOpenOn true flags = readOnlyOpen flags := by
  simp only [readOnlyOpenOn, readOnlyOpen, true_and]

/-- `rofs_open` on Darwin. -/
def rofsOpenOnDarwin {α : Type} (flags : UInt32) (openFn : UInt32 → NeutralM α) : NeutralM α := do
  match ← Prog.ofExcept (readOnlyOpenOn (hostKeepsOPath .darwin) flags) with
  | .open flags => openFn flags
  | .openExisting flags =>
    match ← (openFn flags).attempt with
    | .ok a => return a
    | .error e => .err (notFoundToErofs e)

/-- The reply to an OPEN or OPENDIR. -/
def openReply (p : NeutralM (Option Handle × OpenOptions)) : NeutralM FileReply := do
  let (handle, opts) ← p
  return .opened handle opts

/-- **`PassthroughFsRo` on Darwin**, request by request. -/
def serveOnDarwin (cfg : Config) : Request → FsM Reply
  | .file (.open inode _ flags) =>
    Reply.ofFile (openReply (rofsOpenOnDarwin flags (Darwin.openFile cfg inode)))
  | .file (.opendir inode flags) =>
    Reply.ofFile (openReply (rofsOpenOnDarwin flags (Darwin.opendir cfg inode)))
  | .create _ parent name _ _ flags _ _ => do
    let e ← FsM.onDarwin (createEntry cfg parent name)
    let (handle, opts) ← rofsOpenOnDarwin flags (Darwin.openFile cfg e.inode)
    return .created e handle opts
  | request => FsM.onDarwin (serve cfg request)

/-- **`PassthroughFsRo`**, request by request. -/
def serveOn (kind : HostKind) (cfg : Config) (request : Request) : FsM Reply :=
  match kind with
  | .linux => serve cfg request
  | .darwin => serveOnDarwin (Darwin.config cfg) request

/-- A call of a method of `FileSystem`. -/
inductive Call where
  | init (capable : FsOptions)
  | destroy
  | request (r : Request)

/-- What a call does.  What it returns is of no interest here. -/
def Call.run (kind : HostKind) (cfg : Config) : Call → SessionM Unit
  | .init capable =>
    match kind with
    | .linux => discard (PassthroughFs.init cfg capable)
    | .darwin => discard (SessionM.onDarwin (PassthroughFs.init (Darwin.config cfg) capable))
  | .destroy =>
    match kind with
    | .linux => PassthroughFs.destroy
    | .darwin => SessionM.onDarwin PassthroughFs.destroy
  | .request r => discard (liftM (serveOn kind cfg r) : SessionM Reply)

end PassthroughFsRo

end Virtiofsd
