/-
  # The state that is migrated (`serialized.rs`, `serialization.rs`)

  What the source sends: the inodes with their refcounts and where to find them, the open
  handles, the counters for new ids, and the options it has negotiated with the guest.  An
  inode without migration info is sent as `invalid`.

  The state is read while the guest is stopped, so it is a function of the file system.  For
  file handles the destination also gets a path for every mount; how the source finds these
  paths in its mount table is left to a parameter.
-/
import Virtiofsd.Migration.Prepare

namespace Virtiofsd

/-! ## 1. The serialized state -/

/-- `serialized::InodeLocation`. -/
inductive SerializedLocation where
  | rootNode
  | path (parent : Inode) (filename : Name)
  | invalid
  | fullPath (filename : Name)
  | fileHandle (handle : SerializableFileHandle)
  deriving DecidableEq

/-- `serialized::Inode`. -/
structure SerializedInode where
  id : Inode
  refcount : Nat
  location : SerializedLocation
  fileHandle : Option SerializableFileHandle
  deriving DecidableEq

/-- `serialized::Handle`, with the flags of its source. -/
structure SerializedHandle where
  id : Handle
  inode : Inode
  flags : UInt32
  deriving DecidableEq

/-- `serialized::NegotiatedOpts`. -/
structure NegotiatedOpts where
  writeback : Bool
  announceSubmounts : Bool
  posixAcl : Bool
  supGroupExtension : Bool
  deriving DecidableEq

/-- **`serialized::PassthroughFsV2`**; the first version has no mount paths. -/
structure SerializedFs where
  inodes : List SerializedInode
  nextInode : Nat
  handles : List SerializedHandle
  nextHandle : Nat
  negotiatedOpts : NegotiatedOpts
  mountPaths : List (Nat × Name)

/-! ## 2. Serialization -/

/-- `InodeMigrationInfo::as_serialized`. -/
def InodeLocation.asSerialized : InodeLocation → SerializedLocation
  | .rootNode => .rootNode
  | .path parent filename => .path parent.data.inode filename
  | .fileHandle handle => .fileHandle handle

/-- `InodeData::as_serialized`; its `assert_eq!` is `assertRootMarked`. -/
def Cell.asSerialized (cfg : Config) (c : Cell) : Except IoError SerializedInode :=
  match c.migrationInfo with
  | none => .error (.other "Failed to reconstruct inode location")
  | some info =>
    if cfg.migrationVerifyHandles then
      match info.fileHandle with
      | none => .error (.other "No prepared file handle found")
      | some handle => .ok ⟨c.data.inode, c.refcount, info.location.asSerialized, some handle⟩
    else .ok ⟨c.data.inode, c.refcount, info.location.asSerialized, none⟩

/-- An inode that cannot be serialized is marked as invalid. -/
def Cell.serialized (cfg : Config) (c : Cell) : SerializedInode :=
  match c.asSerialized cfg with
  | .ok n => n
  | .error _ => ⟨c.data.inode, c.refcount, .invalid, none⟩

/-- The inodes, in the order the store is iterated in. -/
def serializedInodes (cfg : Config) (s : InodeStoreInner) : List SerializedInode :=
  s.inodes.filterMap fun i => (s.cell? i).map (Cell.serialized cfg)

/-- `From<&PassthroughFs> for serialized::NegotiatedOpts`. -/
def PassthroughFs.negotiatedOpts (fs : PassthroughFs) : NegotiatedOpts where
  writeback := fs.flags .writeback
  announceSubmounts := fs.flags .announceSubmounts
  posixAcl := fs.flags .posixAcl
  supGroupExtension := fs.flags .supGroupExtension

/-- **`From<&PassthroughFs> for serialized::PassthroughFsV2`.**  Mount paths are collected
only when file handles are migrated. -/
def PassthroughFs.serialized (cfg : Config) (mountPaths : List (Nat × Name))
    (fs : PassthroughFs) : SerializedFs where
  inodes := serializedInodes cfg fs.inodes
  nextInode := fs.nextInode
  handles := fs.handles.entries.map fun e => ⟨e.1, e.2.inode, e.2.migrationFlags⟩
  nextHandle := fs.nextHandle
  negotiatedOpts := fs.negotiatedOpts
  mountPaths := if cfg.migrationMode = .fileHandles then mountPaths else []

end Virtiofsd
