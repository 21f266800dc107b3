/-
  # The inode store (`passthrough/inode_store.rs`)

  Every inode the guest knows is an `InodeData` in the inode store, under the FUSE inode id
  it was given.  Its `refcount` counts two kinds of owners with ONE number: the lookups the
  guest holds (it gives them back with FORGET) and the daemon's own `StrongInodeReference`s.
  When the number reaches zero the inode leaves the store.

  Two things make the store more than a map:

  * an `Arc<InodeData>` outlives its entry in the store, and a thread that still has one can
    try to increment the refcount of an inode that is already gone.  So the model keeps
    every `InodeData` ever built in `cells`, the store maps ids to addresses of cells, and
    an `InodeRef` is such an `Arc`;
  * while a migration is prepared, an inode may hold a strong reference to its parent
    directory in its `migration_info`, so removing one inode can cascade upwards.
-/
import Virtiofsd.Basic
import Mathlib.Data.List.AList
import Mathlib.Data.List.Sort

namespace Virtiofsd

/-! ## 1. Inodes -/

/-- A FUSE inode id (`u64`). -/
abbrev Inode := Nat

/-- A file descriptor of the daemon. -/
abbrev Fd := Nat

/-- The bytes of a file name, without the terminating NUL. -/
abbrev Name := List UInt8

/-- `fuse::ROOT_ID`. -/
def ROOT_ID : Inode := 1

/-- `InodeIds`: what identifies an inode on the host. -/
structure InodeIds where
  ino : Nat
  dev : Nat
  mntId : Nat
  deriving DecidableEq

/-- `FileHandle`: a host file handle and the mount it belongs to. -/
structure FileHandle where
  mntId : Nat
  handleType : Int
  handle : List UInt8
  deriving DecidableEq

/-- `SerializableFileHandle`: a file handle as it is migrated. -/
structure SerializableFileHandle where
  mntId : Nat
  handleType : Int
  handle : List UInt8
  deriving DecidableEq

/-- `From<&FileHandle> for SerializableFileHandle`. -/
def FileHandle.toSerializable (fh : FileHandle) : SerializableFileHandle :=
  ⟨fh.mntId, fh.handleType, fh.handle⟩

/-- `FileOrHandle`: how the daemon reaches an inode.  An inode that could not be restored
after a migration is `invalid` and answers every request with that error. -/
inductive FileOrHandle where
  | file (fd : Fd)
  | handle (h : FileHandle)
  | invalid (err : IoError)
  deriving DecidableEq

/-- `InodeData`, as far as it never changes. -/
structure InodeData where
  inode : Inode
  fileOrHandle : FileOrHandle
  ids : InodeIds
  mode : Nat
  deriving DecidableEq

/-- An `Arc<InodeData>`: the address of the cell and the data read through it. -/
structure InodeRef where
  addr : Nat
  data : InodeData
  deriving DecidableEq

/-- `preserialization::InodeLocation`.  A `path` owns a strong reference to the parent. -/
inductive InodeLocation where
  | rootNode
  | path (parent : InodeRef) (filename : Name)
  | fileHandle (h : SerializableFileHandle)
  deriving DecidableEq

/-- `InodeMigrationInfo`. -/
structure InodeMigrationInfo where
  location : InodeLocation
  fileHandle : Option SerializableFileHandle
  deriving DecidableEq

namespace InodeMigrationInfo

/-- `InodeMigrationInfo::has_path`. -/
def hasPath (info : InodeMigrationInfo) : Bool :=
  match info.location with
  | .rootNode => false
  | .path _ _ => true
  | .fileHandle _ => false

/-- `for_each_strong_reference`: the inode the info holds a strong reference to, if any. -/
def strongReference (info : InodeMigrationInfo) : Option Inode :=
  match info.location with
  | .rootNode => none
  | .path parent _ => some parent.data.inode
  | .fileHandle _ => none

end InodeMigrationInfo

/-- The heap cell of an `InodeData`: the data and its two mutable fields. -/
structure Cell where
  data : InodeData
  refcount : Nat
  migrationInfo : Option InodeMigrationInfo
  deriving DecidableEq

/-- The inode a cell's migration info holds a strong reference to, if any. -/
def Cell.strongReference (c : Cell) : Option Inode :=
  c.migrationInfo.bind InodeMigrationInfo.strongReference

/-! ## 2. The store -/

/-- **`InodeStoreInner`**, with the heap cells of all `InodeData`s. -/
structure InodeStoreInner where
  cells : List Cell
  data : AList fun _ : Inode => Nat
  byIds : AList fun _ : InodeIds => Inode
  byHandle : AList fun _ : FileHandle => Inode

namespace InodeStoreInner

/-- `Default for InodeStoreInner`. -/
def empty : InodeStoreInner := ⟨[], ∅, ∅, ∅⟩

/-- The cell the store holds for an inode id. -/
def cell? (s : InodeStoreInner) (i : Inode) : Option Cell :=
  (s.data.lookup i).bind fun a => s.cells[a]?

/-- `InodeStore::get`. -/
def get (s : InodeStoreInner) (i : Inode) : Option InodeRef :=
  (s.data.lookup i).bind fun a => s.cells[a]?.map fun c => ⟨a, c.data⟩

/-- `contains`. -/
def contains (s : InodeStoreInner) (i : Inode) : Bool := (s.data.lookup i).isSome

/-- The refcount of an inode, `0` when it is not in the store. -/
def refcount (s : InodeStoreInner) (i : Inode) : Nat := (s.cell? i).elim 0 Cell.refcount

/-- `inode_by_ids`. -/
def inodeByIds (s : InodeStoreInner) (ids : InodeIds) : Option Inode := s.byIds.lookup ids

/-- `inode_by_handle`. -/
def inodeByHandle (s : InodeStoreInner) (h : FileHandle) : Option Inode := s.byHandle.lookup h

def setCell (s : InodeStoreInner) (a : Nat) (c : Cell) : InodeStoreInner :=
  { s with cells := s.cells.set a c }

/-- The ids in the store in ascending order, as a `BTreeMap` iterates over them. -/
def inodes (s : InodeStoreInner) : List Inode := s.data.keys.insertionSort (· ≤ ·)

/-- `InodeIterator::next`: the inode with the lowest id after `last`. -/
def nextAfter (s : InodeStoreInner) (last : Option Inode) : Option InodeRef :=
  let lowerBound := last.elim 0 (· + 1)
  (s.inodes.find? fun i => decide (lowerBound ≤ i)).bind s.get

/-- The cell behind an `Arc`.  Anything else, which Rust's types rule out, has none. -/
def deref (s : InodeStoreInner) (r : InodeRef) : Option Cell :=
  s.cells[r.addr]?.filter fun c => c.data = r.data

/-- **`StrongInodeReference::increment_refcount_for`**: never from zero to one. -/
def incrementRefcount (s : InodeStoreInner) (r : InodeRef) : Bool × InodeStoreInner :=
  match s.deref r with
  | some c =>
    if 0 < c.refcount then (true, s.setCell r.addr { c with refcount := c.refcount + 1 })
    else (false, s)
  | none => (false, s)

/-- `mem::replace` on the `migration_info` behind an `Arc`: store `info`, return the old
one.  What is not an `Arc` gets its own info back. -/
def exchangeInfo (s : InodeStoreInner) (r : InodeRef) (info : Option InodeMigrationInfo) :
    Option InodeMigrationInfo × InodeStoreInner :=
  match s.deref r with
  | some c => (c.migrationInfo, s.setCell r.addr { c with migrationInfo := info })
  | none => (info, s)

/-- What looking for an inode by handle and ids finds.  `dangling` is the `unwrap` of
`get_by_ids` or `get_by_handle` on an index entry without an inode. -/
inductive Claim where
  | found (r : InodeRef)
  | notFound
  | dangling
  deriving DecidableEq

/-- The search of `do_claim_inode`: by handle first; by ids only inodes with an open file. -/
def findInode (s : InodeStoreInner) (handle : Option FileHandle) (ids : InodeIds) : Claim :=
  match handle.bind s.inodeByHandle with
  | some i => (s.get i).elim .dangling .found
  | none =>
    match s.inodeByIds ids with
    | some i =>
      match s.get i with
      | some r =>
        match r.data.fileOrHandle with
        | .file _ => .found r
        | _ => .notFound
      | none => .dangling
    | none => .notFound

/-- **`do_claim_inode`**: find an inode and take a strong reference to it. -/
def claimInode (s : InodeStoreInner) (handle : Option FileHandle) (ids : InodeIds) :
    Claim × InodeStoreInner :=
  match s.findInode handle ids with
  | .found r =>
    match s.incrementRefcount r with
    | (true, s') => (.found r, s')
    | (false, s') => (.notFound, s')
  | .notFound => (.notFound, s)
  | .dangling => (.dangling, s)

/-- The handle an inode is indexed by. -/
def indexHandle (d : InodeData) : Option FileHandle :=
  match d.fileOrHandle with
  | .file _ => none
  | .handle h => some h
  | .invalid _ => none

/-- **`insert_new`**: put a new cell into the heap and into all three maps. -/
def insertNew (s : InodeStoreInner) (c : Cell) : InodeRef × InodeStoreInner :=
  let a := s.cells.length
  (⟨a, c.data⟩,
    { cells := s.cells ++ [c]
      data := s.data.insert c.data.inode a
      byIds := s.byIds.insert c.data.ids c.data.inode
      byHandle := match indexHandle c.data with
        | some h => s.byHandle.insert h c.data.inode
        | none => s.byHandle })

/-- What `get_or_insert` does with the new `InodeData`: it drops it when it finds an inode
(`found`) or the id is taken (`doubleUse`), and inserts it otherwise. -/
inductive Insertion where
  | found (r : InodeRef)
  | inserted (r : InodeRef)
  | doubleUse
  | dangling
  deriving DecidableEq

/-- **`InodeStore::get_or_insert`.** -/
def getOrInsert (s : InodeStoreInner) (d : InodeData) (info : Option InodeMigrationInfo) :
    Insertion × InodeStoreInner :=
  match s.claimInode (indexHandle d) d.ids with
  | (.found r, s') => (.found r, s')
  | (.dangling, s') => (.dangling, s')
  | (.notFound, s') =>
    if s'.contains d.inode then (.doubleUse, s')
    else
      let (r, s'') := s'.insertNew ⟨d, 1, info⟩
      (.inserted r, s'')

/-- **`InodeStore::new_inode`**: `none` is the "Double-use of FUSE inode ID" error. -/
def newInode (s : InodeStoreInner) (c : Cell) : Option InodeStoreInner :=
  if s.contains c.data.inode then none else some (s.insertNew c).2

/-- `refcount.store` behind an `Arc`. -/
def storeRefcount (s : InodeStoreInner) (r : InodeRef) (n : Nat) : InodeStoreInner :=
  match s.deref r with
  | some c => s.setCell r.addr { c with refcount := n }
  | none => s

/-! ## 3. Removal -/

/-- The part of `remove` before the strong reference is dropped: the cell at `a` leaves the
three maps and loses its migration info. -/
def detach (s : InodeStoreInner) (a : Nat) (c : Cell) : InodeStoreInner :=
  { cells := s.cells.set a { c with migrationInfo := none }
    data := s.data.erase c.data.inode
    byIds := s.byIds.erase c.data.ids
    byHandle := match indexHandle c.data with
      | some h => s.byHandle.erase h
      | none => s.byHandle }

/-- `forget_one` and `remove`, which call each other: dropping the strong reference in a
removed inode's migration info forgets the parent once. -/
def forgetLoop : Nat → InodeStoreInner → Inode → Nat → InodeStoreInner
  | 0, s, _, _ => s
  | fuel + 1, s, i, count =>
    match s.data.lookup i with
    | none => s
    | some a =>
      match s.cells[a]? with
      | none => s
      | some c =>
        let c' := { c with refcount := c.refcount - count }
        if c'.refcount = 0 then
          match c.strongReference with
          | some parent => forgetLoop fuel ((s.setCell a c').detach a c') parent 1
          | none => (s.setCell a c').detach a c'
        else s.setCell a c'

/-- **`forget_one`**: decrement, saturating at zero, and remove the inode at zero.  Every
removal takes one inode out of the store, so the cascade is at most as long as it. -/
def forgetOne (s : InodeStoreInner) (i : Inode) (count : Nat) : InodeStoreInner :=
  forgetLoop (s.data.keys.length + 1) s i count

/-- `forget_many`. -/
def forgetMany (s : InodeStoreInner) (requests : List (Inode × Nat)) : InodeStoreInner :=
  requests.foldl (fun s r => s.forgetOne r.1 r.2) s

/-- The first loop of `clear_migration_info`: take the info of every inode but the root, and
collect the strong references in them. -/
def takeInfos : List Inode → InodeStoreInner → List Inode × InodeStoreInner
  | [], s => ([], s)
  | i :: is, s =>
    if i = ROOT_ID then takeInfos is s
    else
      match s.data.lookup i with
      | none => takeInfos is s
      | some a =>
        match s.cells[a]? with
        | none => takeInfos is s
        | some c =>
          let (refs, s') := takeInfos is (s.setCell a { c with migrationInfo := none })
          (c.strongReference.toList ++ refs, s')

/-- **`clear_migration_info`.** -/
def clearMigrationInfo (s : InodeStoreInner) : InodeStoreInner :=
  let (refs, s') := takeInfos s.inodes s
  refs.foldl (fun s i => s.forgetOne i 1) s'

/-- **`clear`.**  With the maps go the last `Arc`s, and the `InodeData`s are freed. -/
def clear (s : InodeStoreInner) : InodeStoreInner :=
  { s.clearMigrationInfo with cells := [], data := ∅, byIds := ∅, byHandle := ∅ }

end InodeStoreInner

end Virtiofsd
