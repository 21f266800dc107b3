/-
  # The state of the passthrough file system and the actions on it

  A request is served by a thread that calls into the host kernel and touches the shared
  state of the daemon: the inode store behind its lock, atomics, the handle table, the
  dentry index.  Everything between two such accesses is local to the thread.  So a request
  is a program over ATOMIC ACTIONS:

  * `HostCall`: a call into the host, answered by the host in any way its type allows;
  * `Query`: an access to the shared state that moves no inode reference;
  * `RefAct`: an access to the inode store that takes, moves or gives back references.

  `NeutralAct` are the first two kinds, `Act` all three.  Requests that touch no references
  are programs over `NeutralAct`, so nothing has to be proved about the references they
  leave alone.  Starting and ending a session (`SessionAct`) wipes the store and is kept
  apart.

  The references are the tokens of `Lib.TokenSpec`: `refTokens` says what each action needs
  and gives, and `owned_of_perform` that the store then accounts for them all.
-/
import Virtiofsd.InodeStore.Live
import Virtiofsd.Lib.Program
import Virtiofsd.Passthrough.Config

namespace Virtiofsd

open Lib

/-! ## 1. What the host answers -/

/-- `stat64`. -/
structure Stat where
  ino : Nat
  dev : Nat
  mode : Nat
  nlink : Nat
  uid : UInt32
  gid : UInt32
  rdev : Nat
  size : Nat
  blksize : Nat
  blocks : Nat
  atime : Nat
  atimeNsec : Nat
  mtime : Nat
  mtimeNsec : Nat
  ctime : Nat
  ctimeNsec : Nat
  deriving DecidableEq

/-- `StatExt`. -/
structure StatExt where
  st : Stat
  mntId : Nat
  deriving DecidableEq

/-- `FdPathError`: why `/proc/self/fd` gives no path. -/
inductive FdPathError where
  | readLink (err : IoError)
  | tooLong
  | invalidCString (err : IoError)
  | notAFile
  | deleted
  deriving DecidableEq

/-- A window of guest memory: the slice of a descriptor the host reads or writes. -/
structure VolatileSlice where
  addr : Nat
  len : Nat
  deriving DecidableEq

/-- A directory entry as `getdents64` returns it. -/
structure LinuxDirent where
  ino : Nat
  off : Nat
  type : Nat
  name : Name
  deriving DecidableEq

/-- Plain `libc` calls that return `0` or `-1`.  The daemon asks for the error number
separately, with `io::Error::last_os_error`. -/
inductive LibcCall where
  | unlinkat (dir : Fd) (name : Name) (flags : Nat)
  | mkdirat (dir : Fd) (name : Name) (mode : UInt32)
  | mknodat (dir : Fd) (name : Name) (mode rdev : UInt32)
  | symlinkat (target : Name) (dir : Fd) (name : Name)
  | linkat (fd : Fd) (dir : Fd) (name : Name)
  | renameat2 (olddir : Fd) (oldname : Name) (newdir : Fd) (newname : Name) (flags : UInt32)
  | fchmod (fd : Fd) (mode : UInt32)
  | fchmodat (fd : Fd) (mode : UInt32)
  | fchownat (fd : Fd) (uid gid : UInt32)
  | ftruncate (fd : Fd) (size : Nat)
  | futimens (fd : Fd) (atime mtime : Option (Option (Nat × Nat)))
  | utimensat (fd : Fd) (atime mtime : Option (Option (Nat × Nat)))
  | fsetxattr (fd : Fd) (name : Name) (value : List UInt8) (flags : UInt32)
  | setxattr (fd : Fd) (name : Name) (value : List UInt8) (flags : UInt32)
  | fremovexattr (fd : Fd) (name : Name)
  | removexattr (fd : Fd) (name : Name)
  | fsync (fd : Fd)
  | fdatasync (fd : Fd)
  | fallocate (fd : Fd) (mode : UInt32) (offset length : Nat)
  | syncfs (fd : Fd)
  | setNocache (fd : Fd)
  | close (fd : Fd)

/-- **A call into the host.** -/
inductive HostCall where
  | openat (dir : Fd) (name : Name) (flags : UInt32) (mode : Option UInt32)
  | openRoot (flags : UInt32)
  | reopen (fd : Fd) (flags : UInt32)
  | openByHandle (h : FileHandle) (flags : UInt32)
  | mountFd (mntId : Nat)
  | statx (fd : Fd) (name : Option Name)
  | nameToHandle (fd : Fd) (name : Option Name)
  | getPath (fd : Fd)
  | fchdir (back : Bool)
  | geteuid
  | getegid
  | addCapability
  | setsupgroup (gids : List UInt32)
  | seteffgid (gid : UInt32)
  | seteffuid (uid : UInt32)
  | dropsupgroups
  | umask (mask : UInt32)
  | dropCapability
  | restoreCapability
  | preadv (fd : Fd) (iovecs : List VolatileSlice) (offset : Nat)
  | pwritev (fd : Fd) (iovecs : List VolatileSlice) (offset : Nat) (append : Bool)
  | getdents (fd : Fd) (offset : Option Nat) (size : Nat)
  | fchmodPath (fd : Fd) (oPath : Bool) (mode : UInt32)
  | libc (c : LibcCall)
  | readlinkat (fd : Fd)
  | getxattr (fd : Fd) (oPath : Bool) (name : Name) (size : Nat)
  | listxattr (fd : Fd) (oPath : Bool) (size : Nat)
  | lseek (fd : Fd) (offset : Nat) (whence : UInt32)
  | copyFileRange (fdIn : Fd) (offIn : Nat) (fdOut : Fd) (offOut len flags : Nat)
  | dup (fd : Fd)
  | fstatvfs (fd : Fd)
  | lastOsError
  | cancelled

/-- The answers.  Calls made through a wrapper of `oslib` come back with their own error;
for `libc` calls the answer says whether they succeeded.  `cancelled` is the flag by which
the frontend cancels a migration. -/
abbrev HostCall.Ans : HostCall → Type
  | openat _ _ _ _ => Except Errno Fd
  | openRoot _ => Except Errno Fd
  | reopen _ _ => Except Errno Fd
  | openByHandle _ _ => Except Errno Fd
  | mountFd _ => Except IoError Unit
  | statx _ _ => Except IoError StatExt
  | nameToHandle _ _ => Except Errno FileHandle
  | getPath _ => Except FdPathError Name
  | fchdir _ => Except Errno Unit
  | geteuid => UInt32
  | getegid => UInt32
  | addCapability => Except IoError Unit
  | setsupgroup _ => Except Errno Unit
  | seteffgid _ => Except Errno Unit
  | seteffuid _ => Except Errno Unit
  | dropsupgroups => Except Errno Unit
  | umask _ => UInt32
  | dropCapability => Except IoError Bool
  | restoreCapability => Bool
  | preadv _ _ _ => Except Errno Nat
  | pwritev _ _ _ _ => Except Errno Nat
  | getdents _ _ _ => Except Errno (List LinuxDirent)
  | fchmodPath _ _ _ => Except Errno Unit
  | libc _ => Bool
  | readlinkat _ => Option (List UInt8)
  | getxattr _ _ _ _ => Option (Nat × List UInt8)
  | listxattr _ _ _ => Option (Nat × List UInt8)
  | lseek _ _ _ => Option Nat
  | copyFileRange _ _ _ _ _ _ => Option Nat
  | dup _ => Option Fd
  | fstatvfs _ => Option (List Nat)
  | lastOsError => Errno
  | cancelled => Bool

/-! ## 2. The shared state -/

/-- `HandleData`: an open file or directory of the guest. -/
structure HandleData where
  inode : Inode
  file : Except IoError Fd
  fileType : Nat
  migrationFlags : UInt32

/-- A handle id (`u64`). -/
abbrev Handle := Nat

/-- `DentryIndexInner`: which inode a name was last resolved to, and the names of an inode. -/
structure DentryIndex where
  forward : AList fun _ : Inode × Name => Inode
  reverse : AList fun _ : Inode => List (Inode × Name)

/-- The flags of `PassthroughFs` kept in atomics. -/
inductive FsFlag where
  | writeback
  | announceSubmounts
  | posixAcl
  | supGroupExtension
  | trackMigrationInfo
  deriving DecidableEq

/-- The open handles. -/
abbrev HandleTable := AList fun _ : Handle => HandleData

/-- **`PassthroughFs`**, as far as it changes.  `guestFds` counts the free slots of
`GuestFdSemaphore`. -/
structure PassthroughFs where
  inodes : InodeStoreInner
  nextInode : Nat
  handles : HandleTable
  nextHandle : Nat
  guestFds : Nat
  flags : FsFlag → Bool
  dentryIndex : Option DentryIndex

namespace DentryIndex

def empty : DentryIndex := ⟨∅, ∅⟩

/-- Take `key` out of the names of `child`; an inode without names has no entry. -/
def unname (d : DentryIndex) (child : Inode) (key : Inode × Name) : DentryIndex :=
  match d.reverse.lookup child with
  | none => d
  | some names =>
    let rest := names.erase key
    { d with reverse :=
        if rest.isEmpty then d.reverse.erase child else d.reverse.insert child rest }

/-- Put `key` among the names of `child`. -/
def name (d : DentryIndex) (child : Inode) (key : Inode × Name) : DentryIndex :=
  let names := (d.reverse.lookup child).getD []
  { d with reverse := d.reverse.insert child (if key ∈ names then names else key :: names) }

/-- `DentryIndex::insert`. -/
def insert (d : DentryIndex) (parent : Inode) (nm : Name) (child : Inode) : DentryIndex :=
  let key := (parent, nm)
  let d' := { d with forward := d.forward.insert key child }
  let d' := match d.forward.lookup key with
    | some prev => if prev ≠ child then d'.unname prev key else d'
    | none => d'
  d'.name child key

/-- `DentryIndex::remove`. -/
def remove (d : DentryIndex) (parent : Inode) (nm : Name) : DentryIndex :=
  let key := (parent, nm)
  match d.forward.lookup key with
  | some child => { d with forward := d.forward.erase key }.unname child key
  | none => d

/-- `DentryIndex::rename`: the old holder of the new name loses it; the child, if known,
moves.  A child with no names on record keeps none. -/
def rename (d : DentryIndex) (oldParent : Inode) (oldName : Name) (newParent : Inode)
    (newName : Name) : DentryIndex :=
  let oldKey := (oldParent, oldName)
  let newKey := (newParent, newName)
  let d := d.remove newParent newName
  match d.forward.lookup oldKey with
  | none => d
  | some child =>
    let d' := { d with forward := (d.forward.erase oldKey).insert newKey child }
    match d'.reverse.lookup child with
    | none => d'
    | some names =>
      let rest := names.erase oldKey
      { d' with reverse :=
          d'.reverse.insert child (if newKey ∈ rest then rest else newKey :: rest) }

/-- `DentryIndex::forget_inode`. -/
def forgetInode (d : DentryIndex) (inode : Inode) : DentryIndex :=
  match d.reverse.lookup inode with
  | none => d
  | some names =>
    { forward := names.foldl (fun f key => f.erase key) d.forward
      reverse := d.reverse.erase inode }

end DentryIndex

/-! ## 3. The actions -/

/-- What `dentry_index_insert` and its siblings tell the index. -/
inductive DentryOp where
  | insert (parent : Inode) (name : Name) (child : Inode)
  | remove (parent : Inode) (name : Name)
  | rename (oldParent : Inode) (oldName : Name) (newParent : Inode) (newName : Name)
  | forget (inode : Inode)

/-- **Accesses to the shared state that move no inode reference.**  `lockInfo` and
`unlockInfo` are the mutex around an inode's migration info; `readHandles` is the handle
table under its lock. -/
inductive Query where
  | get (inode : Inode)
  | nextAfter (last : Option Inode)
  | storeIsEmpty
  | readInfo (r : InodeRef)
  | loadRefcount (r : InodeRef)
  | lockInfo (r : InodeRef)
  | unlockInfo (r : InodeRef)
  | fetchAddInode
  | fetchAddHandle
  | loadNextInode
  | loadNextHandle
  | storeNextInode (n : Nat)
  | storeNextHandle (n : Nat)
  | load (flag : FsFlag)
  | store (flag : FsFlag) (value : Bool)
  | allocateFd
  | releaseFd
  | findHandle (handle : Handle) (inode : Inode)
  | insertHandle (handle : Handle) (data : HandleData)
  | removeHandle (handle : Handle) (inode : Inode)
  | readHandles
  | clearHandles
  | hasDentryIndex
  | dentry (op : DentryOp)

abbrev Query.Ans : Query → Type
  | get _ => Option InodeRef
  | nextAfter _ => Option InodeRef
  | storeIsEmpty => Bool
  | readInfo _ => Option InodeMigrationInfo
  | loadRefcount _ => Nat
  | lockInfo _ => Unit
  | unlockInfo _ => Unit
  | fetchAddInode => Inode
  | fetchAddHandle => Handle
  | loadNextInode => Nat
  | loadNextHandle => Nat
  | storeNextInode _ => Unit
  | storeNextHandle _ => Unit
  | load _ => Bool
  | store _ _ => Unit
  | allocateFd => Bool
  | releaseFd => Unit
  | findHandle _ _ => Option HandleData
  | insertHandle _ _ => Unit
  | removeHandle _ _ => Bool
  | readHandles => List (Handle × HandleData)
  | clearHandles => Unit
  | hasDentryIndex => Bool
  | dentry _ => Unit

/-- **Accesses to the inode store that move references.**  `dropRef` is the `Drop` of a
`StrongInodeReference` and `leak` its `leak`; `adopt` turns a lookup that was leaked back
into a strong reference, with `InodeStore::get` and `new_no_increment`; `exchangeInfo` puts
a migration info into an inode and takes out the one that was there. -/
inductive RefAct where
  | increment (r : InodeRef)
  | claim (handle : Option FileHandle) (ids : InodeIds)
  | getOrInsert (data : InodeData) (info : Option InodeMigrationInfo)
  | dropRef (r : InodeRef)
  | leak (r : InodeRef)
  | adopt (inode : Inode)
  | forgetOne (inode : Inode) (count : Nat)
  | forgetMany (requests : List (Inode × Nat))
  | exchangeInfo (r : InodeRef) (info : Option InodeMigrationInfo)
  | clearMigrationInfo

abbrev RefAct.Ans : RefAct → Type
  | increment _ => Bool
  | claim _ _ => InodeStoreInner.Claim
  | getOrInsert _ _ => InodeStoreInner.Insertion
  | dropRef _ => Unit
  | leak _ => Unit
  | adopt _ => Option InodeRef
  | forgetOne _ _ => Unit
  | forgetMany _ => Unit
  | exchangeInfo _ _ => Option InodeMigrationInfo
  | clearMigrationInfo => Unit

/-- The actions of requests that touch no inode reference. -/
inductive NeutralAct where
  | host (c : HostCall)
  | query (q : Query)

abbrev NeutralAct.Ans : NeutralAct → Type
  | host c => c.Ans
  | query q => q.Ans

/-- The actions of a request, and of the preparation of a migration. -/
inductive Act where
  | neutral (n : NeutralAct)
  | ref (r : RefAct)

abbrev Act.Ans : Act → Type
  | neutral n => n.Ans
  | ref r => r.Ans

/-- Starting, ending and restoring a session: wiping the inode store, inserting inodes with
the refcount they are to have, and overwriting a refcount. -/
inductive SessionAct where
  | act (a : Act)
  | clear
  | newInode (cell : Cell)
  | storeRefcount (r : InodeRef) (refcount : Nat)

abbrev SessionAct.Ans : SessionAct → Type
  | act a => a.Ans
  | clear => Unit
  | newInode _ => Bool
  | storeRefcount _ _ => Unit

/-- **Where a request can panic** without touching an inode reference. -/
inductive LocalPanic where
  /-- `mount_fds.as_ref().unwrap()` -/
  | mountFdsUnwrap
  /-- "the working directory should be changed" -/
  | workingDirectory
  /-- "couldn't restore capability" -/
  | restoreCapability
  /-- "unterminated mapping" -/
  | unterminatedMapping
  /-- `assert!(rdwr_inode_file)` in `setattr` -/
  | setattrAssert
  /-- `offset.try_into().unwrap()` in `file_traits.rs` -/
  | fileOffset
  /-- `w.split_at(size_of::<OutHeader>()).unwrap()` in `server.rs` -/
  | replyHeaderSplit
  /-- `max_pages.try_into().unwrap()` in `Server::init` -/
  | maxPages
  /-- the `assert!` and the `unwrap` in `deserialize_root_node` -/
  | restoreRoot
  /-- the `assert_eq!` in `InodeData::as_serialized` -/
  | rootMark
  deriving DecidableEq

/-- **Where the daemon can panic** while it serves a request or prepares a migration. -/
inductive PanicSite where
  | here (p : LocalPanic)
  /-- `StrongInodeReference::clone`: "impossible because `self` is a strong reference" -/
  | strongReferenceClone
  /-- `inodes.get(entry.inode).unwrap()` after an internal lookup -/
  | entryInodeUnwrap
  /-- `get_by_ids`/`get_by_handle`: the `unwrap` on an index entry -/
  | indexUnwrap
  deriving DecidableEq

/-- Programs that touch no inode reference. -/
abbrev NeutralM := Prog NeutralAct NeutralAct.Ans IoError LocalPanic

/-- Programs of the daemon. -/
abbrev FsM := Prog Act Act.Ans IoError PanicSite

/-- Programs that start and end sessions. -/
abbrev SessionM := Prog SessionAct SessionAct.Ans IoError PanicSite

instance : MonadLift NeutralM FsM where
  monadLift p := p.mapAct Act.neutral (fun _ r => r) .here

instance : MonadLift FsM SessionM where
  monadLift p := p.mapAct SessionAct.act (fun _ r => r) id

/-- Make a call into the host. -/
def host (c : HostCall) : NeutralM c.Ans := Prog.perform (R := NeutralAct.Ans) (.host c)

/-- Access the shared state. -/
def query (q : Query) : NeutralM q.Ans := Prog.perform (R := NeutralAct.Ans) (.query q)

/-- Access the references in the inode store. -/
def refAct (r : RefAct) : FsM r.Ans := Prog.perform (R := Act.Ans) (.ref r)

/-- Wipe the inode store, or put an inode into it. -/
def sessionAct (a : SessionAct) : SessionM a.Ans := Prog.perform a

/-- A call that comes back with its own error number. -/
def errno {α : Type} : Except Errno α → NeutralM α
  | .ok a => .ret a
  | .error e => .err (.os e)

/-! ## 4. What the actions do -/

namespace PassthroughFs

/-- `NewPassthroughFs`: the state `PassthroughFs::new` builds. -/
def initial (guestFdLimit : Nat) (dentryIndex : Bool) : PassthroughFs where
  inodes := .empty
  nextInode := ROOT_ID + 1
  handles := ∅
  nextHandle := 0
  guestFds := guestFdLimit
  flags := fun _ => false
  dentryIndex := if dentryIndex then some .empty else none

/-- The inodes in the store that hold an open file of the guest's budget. -/
def openInodes (s : InodeStoreInner) : Nat :=
  (s.data.keys.filter fun i => match s.get i with
    | some r => match r.data.fileOrHandle with
      | .file _ => true
      | _ => false
    | none => false).length

/-- A new store; the files of the inodes that left it go back to the budget. -/
def withInodes (fs : PassthroughFs) (s : InodeStoreInner) : PassthroughFs :=
  { fs with inodes := s, guestFds := fs.guestFds + (openInodes fs.inodes - openInodes s) }

@[simp] theorem withInodes_inodes (fs : PassthroughFs) (s : InodeStoreInner) :
    (fs.withInodes s).inodes = s := rfl

@[simp] theorem withInodes_self (fs : PassthroughFs) : fs.withInodes fs.inodes = fs := by
  simp [withInodes]

/-- Apply an operation to the dentry index, if there is one. -/
def dentry (fs : PassthroughFs) (op : DentryOp) : PassthroughFs :=
  { fs with dentryIndex := fs.dentryIndex.map fun d =>
      match op with
      | .insert parent name child => d.insert parent name child
      | .remove parent name => d.remove parent name
      | .rename oldParent oldName newParent newName =>
        d.rename oldParent oldName newParent newName
      | .forget inode => d.forgetInode inode }

/-- The meaning of a `Query`. -/
def answer : (q : Query) → PassthroughFs → q.Ans × PassthroughFs
  | .get i, fs => (fs.inodes.get i, fs)
  | .nextAfter last, fs => (fs.inodes.nextAfter last, fs)
  | .storeIsEmpty, fs => (fs.inodes.data.keys.isEmpty, fs)
  | .readInfo r, fs => ((fs.inodes.deref r).bind Cell.migrationInfo, fs)
  | .loadRefcount r, fs => ((fs.inodes.deref r).elim 0 Cell.refcount, fs)
  | .lockInfo _, fs => ((), fs)
  | .unlockInfo _, fs => ((), fs)
  -- `fetch_add` on an `AtomicU64` wraps around
  | .fetchAddInode, fs => (fs.nextInode, { fs with nextInode := (fs.nextInode + 1) % 2 ^ 64 })
  | .fetchAddHandle, fs =>
    (fs.nextHandle, { fs with nextHandle := (fs.nextHandle + 1) % 2 ^ 64 })
  | .loadNextInode, fs => (fs.nextInode, fs)
  | .loadNextHandle, fs => (fs.nextHandle, fs)
  | .storeNextInode n, fs => ((), { fs with nextInode := n })
  | .storeNextHandle n, fs => ((), { fs with nextHandle := n })
  | .load flag, fs => (fs.flags flag, fs)
  | .store flag value, fs => ((), { fs with flags := Function.update fs.flags flag value })
  | .allocateFd, fs =>
    if fs.guestFds = 0 then (false, fs) else (true, { fs with guestFds := fs.guestFds - 1 })
  | .releaseFd, fs => ((), { fs with guestFds := fs.guestFds + 1 })
  | .findHandle h i, fs => ((fs.handles.lookup h).filter fun d => d.inode = i, fs)
  | .insertHandle h d, fs => ((), { fs with handles := fs.handles.insert h d })
  | .removeHandle h i, fs =>
    match fs.handles.lookup h with
    | some d =>
      if d.inode = i then
        (true, { fs with handles := fs.handles.erase h
                         guestFds := fs.guestFds + if d.file.isOk then 1 else 0 })
      else (false, fs)
    | none => (false, fs)
  | .readHandles, fs => (fs.handles.entries.map fun e => (e.1, e.2), fs)
  | .clearHandles, fs =>
    ((), { fs with
      handles := ∅
      guestFds := fs.guestFds + (fs.handles.entries.filter fun e => e.2.file.isOk).length })
  | .hasDentryIndex, fs => (fs.dentryIndex.isSome, fs)
  | .dentry op, fs => ((), fs.dentry op)

/-- The meaning of a `RefAct`. -/
def reference : (r : RefAct) → PassthroughFs → r.Ans × PassthroughFs
  | .increment r, fs => ((fs.inodes.incrementRefcount r).1,
      fs.withInodes (fs.inodes.incrementRefcount r).2)
  | .claim h ids, fs => ((fs.inodes.claimInode h ids).1,
      fs.withInodes (fs.inodes.claimInode h ids).2)
  | .getOrInsert d info, fs => ((fs.inodes.getOrInsert d info).1,
      fs.withInodes (fs.inodes.getOrInsert d info).2)
  | .dropRef r, fs => ((), fs.withInodes (fs.inodes.forgetOne r.data.inode 1))
  | .leak _, fs => ((), fs)
  | .adopt i, fs => (fs.inodes.get i, fs)
  | .forgetOne i n, fs => ((), fs.withInodes (fs.inodes.forgetOne i n))
  | .forgetMany l, fs => ((), fs.withInodes (fs.inodes.forgetMany l))
  | .exchangeInfo r info, fs => ((fs.inodes.exchangeInfo r info).1,
      fs.withInodes (fs.inodes.exchangeInfo r info).2)
  | .clearMigrationInfo, fs => ((), fs.withInodes fs.inodes.clearMigrationInfo)

theorem answer_inodes (q : Query) (fs : PassthroughFs) : (answer q fs).2.inodes = fs.inodes := by
  cases q <;> simp only [answer]
  case allocateFd => split <;> rfl
  case removeHandle =>
    split
    · split <;> rfl
    · rfl
  case dentry => rfl

/-- A flag changes where it is stored. -/
theorem answer_flags (q : Query) (fs : PassthroughFs) {f : FsFlag} (hq : ∀ v, q ≠ .store f v) :
    (answer q fs).2.flags f = fs.flags f := by
  cases q with
  | store f' v =>
    refine Function.update_of_ne ?_ ..
    rintro rfl
    exact hq v rfl
  | allocateFd =>
    simp only [answer]
    split <;> rfl
  | removeHandle handle inode =>
    simp only [answer]
    split
    · split <;> rfl
    · rfl
  | _ => rfl

end PassthroughFs

/-- **What an action may do to the shared state**: the host answers as it likes and touches
nothing of it. -/
def Act.Perform : (a : Act) → PassthroughFs → a.Ans → PassthroughFs → Prop
  | .neutral (.host _), fs, _, fs' => fs' = fs
  | .neutral (.query q), fs, r, fs' => PassthroughFs.answer q fs = (r, fs')
  | .ref a, fs, r, fs' => PassthroughFs.reference a fs = (r, fs')

/-! ## 5. One request after the other -/

/-- A host: what it answers to a call. -/
abbrev Host := (c : HostCall) → c.Ans

/-- **The daemon and its host.**  `oracle n c` is how the host answers the call `c` if it is
the `n`th one. -/
structure World where
  fs : PassthroughFs
  oracle : Nat → Host
  calls : Nat

namespace World

/-- Perform an action. -/
def perform : (a : Act) → World → a.Ans × World
  | .neutral (.host c), w => (w.oracle w.calls c, { w with calls := w.calls + 1 })
  | .neutral (.query q), w =>
    ((PassthroughFs.answer q w.fs).1, { w with fs := (PassthroughFs.answer q w.fs).2 })
  | .ref a, w =>
    ((PassthroughFs.reference a w.fs).1, { w with fs := (PassthroughFs.reference a w.fs).2 })

theorem perform_spec (a : Act) (w : World) :
    a.Perform w.fs (w.perform a).1 (w.perform a).2.fs := by
  rcases a with (c | q) | r <;> rfl

/-- Perform an action of a session. -/
def performSession : (a : SessionAct) → World → a.Ans × World
  | .act a, w => w.perform a
  | .clear, w => ((), { w with fs := w.fs.withInodes w.fs.inodes.clear })
  | .newInode c, w =>
    match w.fs.inodes.newInode c with
    | some s => (true, { w with fs := w.fs.withInodes s })
    | none => (false, w)
  | .storeRefcount r n, w =>
    ((), { w with fs := w.fs.withInodes (w.fs.inodes.storeRefcount r n) })

end World

/-! ## 6. The references as tokens -/

/-- **What the actions do with the references their caller holds.** -/
def refTokens : TokenSpec Act Act.Ans Ref where
  use
    | .neutral _ => 0
    | .ref (.increment _) => 0
    | .ref (.claim _ _) => 0
    | .ref (.getOrInsert _ info) => infoTokens info
    | .ref (.dropRef r) => {.strong r}
    | .ref (.leak r) => {.strong r}
    | .ref (.adopt i) => {.guest i}
    | .ref (.forgetOne i n) => Multiset.replicate n (.guest i)
    | .ref (.forgetMany l) => InodeStoreInner.forgottenTokens l
    | .ref (.exchangeInfo _ info) => infoTokens info
    | .ref .clearMigrationInfo => 0
  give
    | .neutral _, _ => 0
    | .ref (.increment r), ok => cond ok {.strong r} 0
    | .ref (.claim _ _), k => match k with
      | InodeStoreInner.Claim.found r => {.strong r}
      | InodeStoreInner.Claim.notFound => 0
      | InodeStoreInner.Claim.dangling => 0
    | .ref (.getOrInsert _ info), k => InodeStoreInner.insertionTokens info k
    | .ref (.dropRef _), _ => 0
    | .ref (.leak r), _ => {.guest r.data.inode}
    | .ref (.adopt _), r => match r with
      | some r => {.strong r}
      | none => 0
    | .ref (.forgetOne _ _), _ => 0
    | .ref (.forgetMany _), _ => 0
    | .ref (.exchangeInfo _ _), old => infoTokens old
    | .ref .clearMigrationInfo, _ => 0
  may
    | .neutral _, _, _ => True
    | .ref (.increment r), τ, ok => .strong r ∈ τ → ok = true
    | .ref (.claim _ _), _, k => k ≠ InodeStoreInner.Claim.dangling
    | .ref (.getOrInsert _ _), _, k => k ≠ InodeStoreInner.Insertion.dangling
    | .ref (.dropRef _), _, _ => True
    | .ref (.leak _), _, _ => True
    | .ref (.adopt i), _, r => ∃ r' : InodeRef, r = some r' ∧ r'.data.inode = i
    | .ref (.forgetOne _ _), _, _ => True
    | .ref (.forgetMany _), _, _ => True
    | .ref (.exchangeInfo _ _), _, _ => True
    | .ref .clearMigrationInfo, _, _ => True

/-- What the references held say about the answers. -/
theorem may_of_owned {a : RefAct} {fs : PassthroughFs} {τ rest : Multiset Ref}
    (h : fs.inodes.Owned (rest + τ)) (huse : refTokens.use (.ref a) ≤ τ) :
    refTokens.may (.ref a) τ (PassthroughFs.reference a fs).1 := by
  cases a with
  | increment r =>
    exact fun hr => h.incrementRefcount_of_strong (Multiset.mem_add.mpr (.inr hr))
  | claim handle ids => exact h.wellFormed.claimInode_ne_dangling handle ids
  | getOrInsert d info => exact h.wellFormed.getOrInsert_ne_dangling d info
  | adopt i =>
    have hi : Ref.guest i ∈ τ := Multiset.singleton_le.mp huse
    obtain ⟨r, hr⟩ := h.get_of_guest (Multiset.mem_add.mpr (.inr hi))
    exact ⟨r, hr, h.wellFormed.get_inode hr⟩
  | dropRef | leak | forgetOne | forgetMany | exchangeInfo | clearMigrationInfo => trivial

theorem owned_reference {a : RefAct} {fs : PassthroughFs} {τ : Multiset Ref}
    (h : fs.inodes.Owned (τ + refTokens.use (.ref a))) :
    (PassthroughFs.reference a fs).2.inodes.Owned
      (τ + refTokens.give (.ref a) (PassthroughFs.reference a fs).1) := by
  cases a with
  | increment r =>
    have h₀ : fs.inodes.Owned τ := by simpa [refTokens] using h
    simp only [PassthroughFs.reference, PassthroughFs.withInodes_inodes]
    cases hi : fs.inodes.incrementRefcount r with
    | mk ok s' =>
      cases ok with
      | true => exact h₀.incrementRefcount hi
      | false =>
        obtain rfl := InodeStoreInner.incrementRefcount_false hi
        simpa [refTokens] using h₀
  | claim handle ids =>
    have h₀ : fs.inodes.Owned τ := by simpa [refTokens] using h
    simp only [PassthroughFs.reference, PassthroughFs.withInodes_inodes]
    cases hk : fs.inodes.claimInode handle ids with
    | mk k s' =>
      cases k with
      | found r => exact h₀.claimInode hk
      | notFound | dangling =>
        obtain rfl := InodeStoreInner.claimInode_of_not_found hk (by simp)
        simpa [refTokens] using h₀
  | getOrInsert d info => exact h.getOrInsert rfl
  | dropRef r =>
    have := h.dropRef
    simpa [refTokens, PassthroughFs.reference] using this
  | leak r =>
    have hb : fs.inodes.Balanced ((τ + {Ref.guest r.data.inode}).map Ref.inode) := by
      have := h.balanced
      simpa [refTokens, Ref.inode] using this
    refine h.edits .refl hb ?_
    intro r' hr'
    refine h.live r' (Multiset.mem_add.mpr (.inl ?_))
    simpa [refTokens] using hr'
  | adopt i =>
    have hi : Ref.guest i ∈ τ + {Ref.guest i} := by simp
    obtain ⟨r, hr⟩ := h.get_of_guest hi
    have hri := h.wellFormed.get_inode hr
    have hb : fs.inodes.Balanced ((τ + {Ref.strong r}).map Ref.inode) := by
      have := h.balanced
      simpa [refTokens, Ref.inode, hri] using this
    have hown : fs.inodes.Owned (τ + {Ref.strong r}) := by
      refine h.edits .refl hb ?_
      intro r' hr'
      rcases Multiset.mem_add.mp hr' with hr' | hr'
      · exact h.live r' (Multiset.mem_add.mpr (.inl hr'))
      · obtain rfl : r' = r := by simpa using hr'
        rw [hri, hr]
    simpa [refTokens, PassthroughFs.reference, hr] using hown
  | forgetOne i n =>
    have := h.forgetOne
    simpa [refTokens, PassthroughFs.reference] using this
  | forgetMany l =>
    have := h.forgetMany
    simpa [refTokens, PassthroughFs.reference] using this
  | exchangeInfo r info => exact h.exchangeInfo rfl
  | clearMigrationInfo =>
    have := h.clearMigrationInfo
    simpa [refTokens, PassthroughFs.reference] using this

/-- **The tokens are the references.**  Performed by a thread that holds the references it
needs, every action keeps the accounting, whatever else is held elsewhere. -/
theorem owned_of_perform {a : Act} {fs fs' : PassthroughFs} {r : a.Ans} {τ rest : Multiset Ref}
    (h : fs.inodes.Owned (rest + τ)) (huse : refTokens.use a ≤ τ) (hp : a.Perform fs r fs') :
    refTokens.may a τ r ∧ fs'.inodes.Owned (rest + refTokens.after a r τ) := by
  rcases a with n | a
  · have hfs : fs'.inodes = fs.inodes := by
      rcases n with c | q
      · rw [show fs' = fs from hp]
      · have := PassthroughFs.answer_inodes q fs
        rw [show PassthroughFs.answer q fs = (r, fs') from hp] at this
        exact this
    rw [hfs]
    refine ⟨trivial, ?_⟩
    simpa [TokenSpec.after, refTokens] using h
  · have hr : PassthroughFs.reference a fs = (r, fs') := hp
    have hmay := may_of_owned h huse
    obtain ⟨σ, rfl⟩ := Multiset.le_iff_exists_add.mp huse
    have hown : fs.inodes.Owned (rest + σ + refTokens.use (.ref a)) := by
      rwa [add_assoc, add_comm σ]
    have hnext := owned_reference hown
    rw [hr] at hmay hnext
    refine ⟨hmay, ?_⟩
    rwa [TokenSpec.after, add_tsub_cancel_left, ← add_assoc]

end Virtiofsd
