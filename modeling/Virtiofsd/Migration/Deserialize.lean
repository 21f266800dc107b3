/-
  # Applying a migrated state (`deserialization.rs`)

  The destination opens every inode again, by what the source says about where to find it,
  and puts it into its store with the refcount it had on the source.  That refcount includes
  one reference for every inode that is found by a path below it; each of these references is
  ADOPTED when the inode is looked for, and dropped afterwards.

  An inode cannot be found below a parent that is not there yet, so the inodes are gone
  through in passes (`Lib/Deferral.lean`).  An inode that cannot be opened, or that turns out
  to be another one than on the source, is a hard error or becomes an invalid inode, as the
  destination is configured.
-/
import Virtiofsd.Lib.Deferral
import Virtiofsd.Migration.Serialize
import Virtiofsd.Passthrough.Operations

namespace Virtiofsd

open Lib

/-! ## 1. Negotiated options -/

/-- `NegotiatedOpts::apply`. -/
def NegotiatedOpts.apply (cfg : Config) (o : NegotiatedOpts) : NeutralM Unit := do
  if !cfg.writeback && o.writeback then
    .err (.other
      "Migration source wants writeback enabled, but it is disabled on the destination")
  query (.store .writeback o.writeback)
  if !cfg.announceSubmounts && o.announceSubmounts then
    .err (.other
      "Migration source wants announce-submounts enabled, but it is disabled on the destination")
  query (.store .announceSubmounts o.announceSubmounts)
  if cfg.posixAcl = .never && o.posixAcl then
    .err (.other
      "Migration source wants posix ACLs enabled, but it is disabled on the destination")
  query (.store .posixAcl o.posixAcl)
  query (.store .supGroupExtension o.supGroupExtension)

/-! ## 2. One inode -/

/-- `util::openat`. -/
def openatStr (dir : Fd) (path : Name) (flags : UInt32) : NeutralM Fd :=
  if 0 ∈ path then .err (.custom .invalidData "nul byte found in provided data")
  else do errno (← host (.openat dir path flags none))

namespace SerializedInode

/-- **`check_file_handle`**: compare with the handle the source sent, if it did. -/
def checkFileHandle (n : SerializedInode) (d : InodeData) : NeutralM Unit :=
  match n.fileHandle with
  | none => return ()
  | some refFh => do
    let isFh ← d.fileOrHandle.toSerializable
    match isFh.requireEqualWithoutMountId refFh with
    | .ok () => return ()
    | .error _ => .err (.other s!"Inode {n.id} is not the same inode as in the migration source")

/-- **`deserialize_invalid_inode`.** -/
def deserializeInvalidInode (cfg : Config) (n : SerializedInode) (err : IoError) :
    Except IoError InodeData :=
  match cfg.migrationOnError with
  | .abort => .error (err.context s!"Inode {n.id}")
  | .guestError => .ok ⟨n.id, .invalid err, ⟨0, 0, 0⟩, 0⟩

/-- `.or_else(|err| self.deserialize_invalid_inode(fs, err))?` -/
def orInvalid (cfg : Config) (n : SerializedInode) : Except IoError InodeData → NeutralM InodeData
  | .ok d => return d
  | .error err => Prog.ofExcept (n.deserializeInvalidInode cfg err)

/-- The part of `deserialize_path` that holds the reference to the parent. -/
def openPath (cfg : Config) (n : SerializedInode) (parent : InodeData) (filename : Name) :
    NeutralM InodeData := do
  let parentFd ← parent.getFile
  let fd ← errContext (openatStr parentFd filename (O_PATH ||| O_NOFOLLOW ||| O_CLOEXEC)) "Opening"
  let st ← statx fd none
  let handle ← getFileHandleOpt cfg fd st
  let fileOrHandle ← newFileOrHandle cfg fd handle
  return ⟨n.id, fileOrHandle, st.ids, st.st.mode⟩

/-- **`deserialize_path`**: takes the reference to the parent and drops it. -/
def deserializePath (cfg : Config) (n : SerializedInode) (parent : InodeRef) (filename : Name) :
    FsM InodeData :=
  Prog.ensuring (n.openPath cfg parent.data filename) (StrongInodeReference.drop parent)

/-- `MAX_HANDLE_SZ`. -/
def maxHandleSize : Nat := 128

/-- **`deserialize_file_handle`.**  `mountFds` maps the mount ids of the source to those of
the mounts that were opened for them here. -/
def deserializeFileHandle (cfg : Config) (n : SerializedInode) (mountFds : List (Nat × Nat))
    (handle : SerializableFileHandle) : NeutralM InodeData := do
  match mountFds.lookup handle.mntId with
  | none => .err (.other s!"Unknown mount ID {handle.mntId}")
  | some mntId =>
    if maxHandleSize < handle.handle.length then .err (.other "File handle too long")
    let ofh : FileHandle := ⟨mntId, handle.handleType, handle.handle⟩
    let fd ← errContext (do errno (← host (.openByHandle ofh O_PATH))) "Opening file handle"
    let st ← errContext (statx fd none) "stat"
    if cfg.inodeFileHandles = .never then
      allocateFd
      return ⟨n.id, .file fd, st.ids, st.st.mode⟩
    else return ⟨n.id, .handle ofh, st.ids, st.st.mode⟩

/-- `InodeStore::new_inode`: an `InodeData` that is not inserted is dropped. -/
def insert (n : SerializedInode) (d : InodeData) : SessionM Unit := do
  let inserted : Bool ← sessionAct (.newInode ⟨d, n.refcount, none⟩)
  if !inserted then
    dropFile d.fileOrHandle
    .err (.other s!"Double-use of FUSE inode ID {d.inode}")

/-- **`deserialize_root_node`**: the root is where the user says it is; only its refcount
comes from the source. -/
def deserializeRootNode (cfg : Config) (n : SerializedInode) : SessionM Unit :=
  if n.id ≠ ROOT_ID then .panic (.here .restoreRoot)
  else if n.location ≠ .rootNode then
    .err (.other "Root node has not been serialized as root node")
  else do
    PassthroughFs.openRootNode cfg
    match ← query (.get ROOT_ID) with
    | none => .panic (.here .restoreRoot)
    | some root =>
      sessionAct (.storeRefcount root n.refcount)
      n.checkFileHandle root.data

/-- The check of an inode found by a path: one that is not what it was is invalid. -/
def verified (cfg : Config) (n : SerializedInode) (d : InodeData) : NeutralM InodeData := do
  match ← (n.checkFileHandle d).attempt with
  | .ok () => return d
  | .error err =>
    dropFile d.fileOrHandle
    n.orInvalid cfg (.error err)

/-- **`deserialize_with_fs`**: `false` asks to be tried again later. -/
def deserializeWithFs (cfg : Config) (mountFds : List (Nat × Nat)) (n : SerializedInode) :
    SessionM Bool :=
  match n.location with
  | .rootNode =>
    if n.id ≠ ROOT_ID then .err (.other s!"Node with non-root ID ({n.id}) given as root node")
    else do
      n.deserializeRootNode cfg
      return true
  | .path parent filename =>
    if n.id = ROOT_ID then .err (.other "Refusing to use path given for root node")
    else do
      match ← query (.get parent) with
      | none => return false
      | some p =>
        let found : Except IoError InodeData ← (n.deserializePath cfg p filename).attempt
        let d ← n.orInvalid cfg found
        let d ← n.verified cfg d
        n.insert d
        return true
  | .invalid => do
    let d ← n.orInvalid cfg (.error (.custom .notFound s!"Migration source has lost inode {n.id}"))
    n.insert d
    return true
  | .fullPath filename =>
    if n.id = ROOT_ID then .err (.other "Refusing to use path given for root node")
    else do
      let root : Except IoError InodeRef ← (StrongInodeReference.new ROOT_ID).attempt
      match root with
      | .error _ => return false
      | .ok sharedDir =>
        let found : Except IoError InodeData ← (n.deserializePath cfg sharedDir filename).attempt
        let d ← n.orInvalid cfg found
        n.insert d
        return true
  | .fileHandle handle =>
    if n.id = ROOT_ID then .err (.other "Refusing to use file handle given for root node")
    else do
      let found ← (n.deserializeFileHandle cfg mountFds handle).attempt
      let d ← n.orInvalid cfg found
      n.insert d
      return true

end SerializedInode

/-! ## 3. All inodes -/

/-- `MountFd::new`: the mount id of what a path leads to. -/
def newMountFd (root : Fd) (path : Name) : NeutralM Nat := do
  let fd ← errContext (openatStr root path O_RDONLY) "Failed to open"
  let st ← errContext (statx fd none) "Failed to get the mount ID"
  return st.mntId

/-- The map of mount ids; a path that cannot be opened is left out. -/
def openMountFds (root : Fd) : List (Nat × Name) → NeutralM (List (Nat × Nat))
  | [] => return []
  | (source, path) :: rest => do
    let mount ← (newMountFd root path).attempt
    let mounts ← openMountFds root rest
    match mount with
    | .ok mntId => return (source, mntId) :: mounts
    | .error _ => return mounts

/-- The error of a pass without progress. -/
def unresolvedReferences : IoError := .other "Unresolved references between serialized inodes"

/-- **The loop over the inodes.** -/
def inodeLoop (cfg : Config) (mountFds : List (Nat × Nat)) (inodes : List SerializedInode) :
    SessionM Unit :=
  Deferral.loop (SerializedInode.deserializeWithFs cfg mountFds) unresolvedReferences
    inodes.length inodes

/-- The root comes first if the mounts have to be opened below it. -/
def restoreRoot (cfg : Config) (mountPaths : List (Nat × Name)) (inodes : List SerializedInode) :
    SessionM (List (Nat × Nat) × List SerializedInode) :=
  if inodes.isEmpty || mountPaths.isEmpty then return ([], inodes)
  else
    match inodes.findIdx? (fun n => n.id = ROOT_ID) with
    | none => .err (.other "Received no root node from the source")
    | some i =>
      match inodes[i]? with
      | none => .err (.other "Received no root node from the source")
      | some root => do
        root.deserializeRootNode cfg
        match ← query (.get ROOT_ID) with
        | none => .panic (.here .restoreRoot)
        | some node =>
          let file ← errContext node.data.getFile "Cannot open shared directory"
          return (← openMountFds file mountPaths, swapRemove inodes i)

/-- The part of `apply_with_mount_paths` that restores the inodes. -/
def restoreInodes (cfg : Config) (mountPaths : List (Nat × Name))
    (inodes : List SerializedInode) : SessionM Unit := do
  sessionAct .clear
  let (mountFds, inodes) ← restoreRoot cfg mountPaths inodes
  inodeLoop cfg mountFds inodes

/-! ## 4. Handles, and the whole state -/

/-- The file of a handle, opened as on the source. -/
def SerializedHandle.openFile (h : SerializedHandle) (inode : InodeData) : NeutralM Fd := do
  let fd ← errContext (inode.openFile h.flags)
    s!"Opening inode {h.inode} as handle {h.id}"
  allocateFd
  return fd

/-- `Handle::deserialize_with_fs`. -/
def SerializedHandle.deserializeWithFs (cfg : Config) (h : SerializedHandle) : NeutralM Unit := do
  let some inode ← query (.get h.inode) | .err (.other s!"Inode {h.inode} not found")
  let file ← (h.openFile inode.data).attempt
  match file, cfg.migrationOnError with
  | .error err, .abort => .err err
  | _, _ => query (.insertHandle h.id ⟨h.inode, file, fileType inode.data.mode, h.flags⟩)

def restoreHandles (cfg : Config) : List SerializedHandle → NeutralM Unit
  | [] => return ()
  | h :: rest => do
    h.deserializeWithFs cfg
    restoreHandles cfg rest

/-- **`apply_with_mount_paths`.** -/
def SerializedFs.apply (cfg : Config) (state : SerializedFs) : SessionM Unit := do
  state.negotiatedOpts.apply cfg
  restoreInodes cfg state.mountPaths state.inodes
  query (.storeNextInode state.nextInode)
  query .clearHandles
  restoreHandles cfg state.handles
  query (.storeNextHandle state.nextHandle)

/-- The counter of the inodes is set, and the handles are closed. -/
def World.cleared (w : World) (nextInode : Nat) : World :=
  { w with fs := (PassthroughFs.answer .clearHandles { w.fs with nextInode := nextInode }).2 }

/-- **When applying a state goes well**: the options do, then the inodes, then the handles. -/
theorem SerializedFs.apply_run_iff {cfg : Config} {state : SerializedFs} {w w' : World} :
    (state.apply cfg).run World.performSession w = (.ok (), w') ↔ ∃ w₁ w₂ w₃,
      (liftM (state.negotiatedOpts.apply cfg) : SessionM Unit).run World.performSession w =
        (.ok (), w₁) ∧
      (restoreInodes cfg state.mountPaths state.inodes).run World.performSession w₁ =
        (.ok (), w₂) ∧
      (liftM (restoreHandles cfg state.handles) : SessionM Unit).run World.performSession
        (w₂.cleared state.nextInode) = (.ok (), w₃) ∧
      w' = { w₃ with fs := { w₃.fs with nextHandle := state.nextHandle } } := by
  unfold SerializedFs.apply
  constructor
  · intro h
    obtain ⟨_, w₁, h₁, h⟩ := Prog.of_run_bind _ h
    obtain ⟨_, w₂, h₂, h⟩ := Prog.of_run_bind _ h
    obtain ⟨_, _, ⟨⟩, h⟩ := Prog.of_run_bind _ h
    obtain ⟨_, _, ⟨⟩, h⟩ := Prog.of_run_bind _ h
    obtain ⟨_, w₃, h₃, h⟩ := Prog.of_run_bind _ h
    exact ⟨w₁, w₂, w₃, h₁, h₂, h₃, (congrArg Prod.snd h).symm⟩
  · rintro ⟨w₁, w₂, w₃, h₁, h₂, h₃, rfl⟩
    rw [Prog.bind_eq, Prog.run_bind_of_ok _ h₁, Prog.bind_eq, Prog.run_bind_of_ok _ h₂]
    exact Prog.run_bind_of_ok _ h₃

end Virtiofsd
