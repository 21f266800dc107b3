/-
  # Reading the state that is migrated (`serialization.rs`)

  `PassthroughFs.serialized` is the state of a file system that stands still.  The source
  reads it piece by piece: the inodes one after the other, each as it is at that moment, and
  the counters at the end.  The read lock of the handles is held for the whole of it, but the
  inode store is not locked, and requests may run in between.  If none do, what is read is
  that state, unless an inode has the root's placeholder that is not the root, or the other
  way round: this is asserted, and the daemon panics (`readState_run`).
-/
import Virtiofsd.Migration.GuestErrors

namespace Virtiofsd

open Lib List Prog

variable {cfg : Config}

/-! ## 1. The program -/

def InodeLocation.isRootNode : InodeLocation → Bool
  | .rootNode => true
  | _ => false

/-- "The root node (and only the root node) must have its special kind of placeholder
info". -/
def Cell.rootMarked (c : Cell) : Bool :=
  c.migrationInfo.all fun info => (c.data.inode == ROOT_ID) == info.location.isRootNode

/-- The `assert_eq!` in `InodeData::as_serialized`. -/
def assertRootMarked (c : Cell) : NeutralM Unit :=
  if c.rootMarked then return () else .panic .rootMark

/-- `InodeData::as_serialized`, and what becomes of an inode that cannot be serialized: its
refcount is loaded once more.  `Cell.asSerialized` is the part after the `assert_eq!`. -/
def readInode (cfg : Config) (r : InodeRef) : NeutralM SerializedInode := do
  let refcount ← query (.loadRefcount r)
  query (.lockInfo r)
  let info ← query (.readInfo r)
  assertRootMarked ⟨r.data, refcount, info⟩
  query (.unlockInfo r)
  match Cell.asSerialized cfg ⟨r.data, refcount, info⟩ with
  | .ok n => return n
  | .error _ =>
    let refcount ← query (.loadRefcount r)
    return ⟨r.data.inode, refcount, .invalid, none⟩

/-- The inodes after `last`, as far as the fuel goes. -/
def readInodes (cfg : Config) : Nat → Option Inode → NeutralM (List SerializedInode)
  | 0, _ => return []
  | fuel + 1, last => do
    match ← query (.nextAfter last) with
    | none => return []
    | some r =>
      let n ← readInode cfg r
      let rest ← readInodes cfg fuel (some r.data.inode)
      return n :: rest

/-- `From<&PassthroughFs> for serialized::NegotiatedOpts`. -/
def readOpts : NeutralM NegotiatedOpts := do
  let writeback : Bool ← query (.load .writeback)
  let announceSubmounts : Bool ← query (.load .announceSubmounts)
  let posixAcl : Bool ← query (.load .posixAcl)
  let supGroupExtension : Bool ← query (.load .supGroupExtension)
  return ⟨writeback, announceSubmounts, posixAcl, supGroupExtension⟩

/-- The counters and the options, which come last. -/
def readTables (mountPaths : List (Nat × Name)) (handles : List (Handle × HandleData))
    (inodes : List SerializedInode) : NeutralM SerializedFs := do
  let nextInode ← query .loadNextInode
  let nextHandle ← query .loadNextHandle
  let opts ← readOpts
  return ⟨inodes, nextInode, handles.map fun e => ⟨e.1, e.2.inode, e.2.migrationFlags⟩, nextHandle,
    opts, mountPaths⟩

/-- **`From<&PassthroughFs> for serialized::PassthroughFsV2`**, step by step. -/
def readState (cfg : Config) (mountPaths : List (Nat × Name)) (fuel : Nat) :
    NeutralM SerializedFs := do
  -- no handle comes or goes from here on: `handles_map` is the guard of their lock
  let handles ← query .readHandles
  let inodes ← readInodes cfg fuel none
  readTables (if cfg.migrationMode = .fileHandles then mountPaths else []) handles inodes

/-- **`serialize`**, up to the bytes: `Virtiofsd.serialize` with the state that is read. -/
def serializeState (cfg : Config) (mountPaths : List (Nat × Name)) (fuel : Nat) :
    FsM SerializedFs := do
  query (.store .trackMigrationInfo false)
  if cfg.migrationConfirmPaths then
    onErr (ProcPaths.confirmPaths cfg fuel) (refAct .clearMigrationInfo)
  let state ← readState cfg mountPaths fuel
  refAct .clearMigrationInfo
  return state

/-! ## 2. While nothing else runs -/

section Alone

variable {w : World} {i : Inode} {c : Cell}

/-- Run a program that touches no reference. -/
abbrev runIn {α : Type} (p : NeutralM α) (w : World) : Outcome IoError PanicSite α × World :=
  (liftM p : FsM α).run World.perform w

variable {s : InodeStoreInner} {last : Option Inode}

theorem runIn_bind_of_ok {α β : Type} {p : NeutralM α} {k : α → NeutralM β} {a : α}
    {w' : World} (h : runIn p w = (.ok a, w')) : runIn (p.bind k) w = runIn (k a) w' := by
  show (mapAct _ _ _ (p.bind k)).run _ _ = _
  rw [mapAct_bind]
  exact run_bind_of_ok _ h

/-- What may panic comes first. -/
theorem runIn_bind_of_ite {α β : Type} {p : NeutralM α} {k : α → NeutralM β} {b : Bool} {a : α}
    {q : PanicSite} (h : runIn p w = (if b then .ok a else .panic q, w)) :
    runIn (p.bind k) w = if b then runIn (k a) w else (.panic q, w) := by
  cases b with
  | true => exact runIn_bind_of_ok h
  | false =>
    show (mapAct _ _ _ (p.bind k)).run _ _ = _
    rw [mapAct_bind]
    exact run_bind_of_panic _ h

theorem readInode_run {a : Nat} (hc : w.fs.inodes.cells[a]? = some c) :
    runIn (readInode cfg ⟨a, c.data⟩) w =
      (if c.rootMarked then .ok (c.serialized cfg) else .panic (.here .rootMark), w) := by
  have hderef : w.fs.inodes.deref ⟨a, c.data⟩ = some c := by simp [InodeStoreInner.deref, hc]
  have hrefcount : runIn (query (.loadRefcount ⟨a, c.data⟩)) w = (.ok c.refcount, w) := by
    show (Outcome.ok _, _) = _
    simp [World.perform, PassthroughFs.answer, hderef]
  have hinfo : runIn (query (.readInfo ⟨a, c.data⟩)) w = (.ok c.migrationInfo, w) := by
    show (Outcome.ok _, _) = _
    simp [World.perform, PassthroughFs.answer, hderef]
  have hlock : runIn (query (.lockInfo ⟨a, c.data⟩)) w = (.ok (), w) := rfl
  have hunlock : runIn (query (.unlockInfo ⟨a, c.data⟩)) w = (.ok (), w) := rfl
  have hassert : runIn (assertRootMarked c) w =
      (if c.rootMarked then .ok () else .panic (.here .rootMark), w) := by
    unfold assertRootMarked
    cases c.rootMarked <;> rfl
  unfold readInode Cell.serialized
  simp only [bind_eq]
  rw [runIn_bind_of_ok hrefcount, runIn_bind_of_ok hlock, runIn_bind_of_ok hinfo,
    runIn_bind_of_ite hassert]
  split
  · rw [runIn_bind_of_ok hunlock]
    cases c.asSerialized cfg with
    | ok n => rfl
    | error e =>
      rw [runIn_bind_of_ok hrefcount]
      rfl
  · rfl

/-- The ids in the store from the one after `last` on. -/
def InodeStoreInner.after (s : InodeStoreInner) (last : Option Inode) : List Inode :=
  s.inodes.filter fun i => decide (last.elim 0 (· + 1) ≤ i)

theorem InodeStoreInner.nextAfter_eq_head : s.nextAfter last = (s.after last).head?.bind s.get := by
  rw [after, head?_filter]
  rfl

/-- The ids are in ascending order, so those after the first one are the others. -/
theorem InodeStoreInner.after_first {l : List Inode} (h : s.after last = i :: l) :
    s.after (some i) = l := by
  have hle : s.inodes.Pairwise (· ≤ ·) := pairwise_insertionSort _ _
  have hlt : (s.after last).Pairwise (· < ·) :=
    ((hle.and s.nodup_inodes).imp fun hij => lt_of_le_of_ne hij.1 hij.2).filter _
  have hi : i ∈ s.after last := h ▸ mem_cons_self
  have hfilter : s.after (some i) = (s.after last).filter fun j => decide (i + 1 ≤ j) := by
    rw [after, after, filter_filter]
    refine filter_congr fun j _ => ?_
    have hlast := of_mem_filter hi
    grind
  rw [h] at hlt
  rw [hfilter, h, filter_cons_of_neg (by simp), filter_eq_self]
  exact fun j hj => decide_eq_true (rel_of_pairwise_cons hlt hj)

/-- Their cells are there. -/
theorem InodeStoreInner.WellFormed.cell_of_mem_after (hwf : s.WellFormed) (hi : i ∈ s.after last) :
    ∃ a c, s.cells[a]? = some c ∧ s.get i = some ⟨a, c.data⟩ ∧ s.cell? i = some c ∧
      c.data.inode = i := by
  obtain ⟨a, ha⟩ : ∃ a, s.data.lookup i = some a := by
    refine Option.isSome_iff_exists.mp (AList.lookup_isSome.mpr ?_)
    rw [AList.mem_keys]
    exact (mem_insertionSort _).mp (mem_of_mem_filter hi)
  obtain ⟨c, hc, hid⟩ := hwf.stored i a ha
  exact ⟨a, c, hc, get_eq_some.mpr ⟨ha, c, hc, rfl⟩, by simp [cell?, ha, hc], hid⟩

/-- These inodes have the infos the assertion asks for. -/
def InodeStoreInner.rootMarked (s : InodeStoreInner) (l : List Inode) : Bool :=
  l.all fun i => (s.cell? i).all Cell.rootMarked

theorem readInodes_run (hwf : w.fs.inodes.WellFormed) :
    ∀ (fuel : Nat) (last : Option Inode), (w.fs.inodes.after last).length < fuel →
      runIn (readInodes cfg fuel last) w =
        (if w.fs.inodes.rootMarked (w.fs.inodes.after last) then
          .ok ((w.fs.inodes.after last).filterMap fun i =>
            (w.fs.inodes.cell? i).map (Cell.serialized cfg))
        else .panic (.here .rootMark), w)
  | 0, _, hfuel => absurd hfuel (Nat.not_lt_zero _)
  | fuel + 1, last, hfuel => by
    have hnext : runIn (query (.nextAfter last)) w =
        (.ok ((w.fs.inodes.after last).head?.bind w.fs.inodes.get), w) := by
      rw [← InodeStoreInner.nextAfter_eq_head]
      rfl
    unfold readInodes
    rw [bind_eq, runIn_bind_of_ok hnext]
    cases hl : w.fs.inodes.after last with
    | nil => rfl
    | cons i l =>
      obtain ⟨a, c, hc, hget, hcell, rfl⟩ := hwf.cell_of_mem_after (hl ▸ mem_cons_self)
      have hrest := readInodes_run hwf fuel (some c.data.inode)
      rw [InodeStoreInner.after_first hl] at hrest
      rw [hl] at hfuel
      specialize hrest (Nat.lt_of_succ_lt_succ hfuel)
      have hall : w.fs.inodes.rootMarked (c.data.inode :: l) =
          (c.rootMarked && w.fs.inodes.rootMarked l) := by
        simp [InodeStoreInner.rootMarked, hcell]
      simp only [head?_cons, Option.bind_some, hget, bind_eq, hall, filterMap_cons, hcell]
      -- the first inode that is not marked as it should be ends the loop
      rw [runIn_bind_of_ite (readInode_run hc), runIn_bind_of_ite hrest]
      cases c.rootMarked with
      | false => rfl
      | true => cases w.fs.inodes.rootMarked l <;> rfl

/-- **While nothing else runs, the state that is read is that of the file system**, if the
root and no other inode is marked as the root. -/
theorem readState_run (hwf : w.fs.inodes.WellFormed) (mountPaths : List (Nat × Name)) {fuel : Nat}
    (hfuel : w.fs.inodes.inodes.length < fuel) :
    runIn (readState cfg mountPaths fuel) w =
      (if w.fs.inodes.rootMarked w.fs.inodes.inodes then .ok (w.fs.serialized cfg mountPaths)
      else .panic (.here .rootMark), w) := by
  have hall : w.fs.inodes.after none = w.fs.inodes.inodes := by simp [InodeStoreInner.after]
  have hinodes := @readInodes_run cfg _ hwf fuel none (hall.symm ▸ hfuel)
  rw [hall] at hinodes
  have hhandles : runIn (query .readHandles) w =
      (.ok (w.fs.handles.entries.map fun e => (e.1, e.2)), w) := rfl
  unfold readState
  simp only [bind_eq]
  rw [runIn_bind_of_ok hhandles, runIn_bind_of_ite hinodes]
  split
  · show (Outcome.ok _, w) = _
    simp only [PassthroughFs.serialized, World.perform, PassthroughFs.answer, map_map]
    rfl
  · rfl

/-- The root and a file in it, both ready to be sent. -/
def rootAndFile : InodeStoreInner :=
  ((InodeStoreInner.empty.insertNew
    ⟨InodeStoreInner.tiedData ROOT_ID, 2, some ⟨.rootNode, none⟩⟩).2.insertNew
    ⟨InodeStoreInner.tiedData 2, 1,
      some ⟨.path ⟨0, InodeStoreInner.tiedData ROOT_ID⟩ [97], none⟩⟩).2

theorem readState_run_root :
    let w : World := { freshWorld 8 with fs := (freshWorld 8).fs.withInodes rootAndFile }
    runIn (readState Config.default [] 3) w = (.ok (w.fs.serialized Config.default []), w) ∧
      (w.fs.serialized Config.default []).inodes =
        [⟨ROOT_ID, 2, .rootNode, none⟩, ⟨2, 1, .path ROOT_ID [97], none⟩] :=
  ⟨readState_run ((InodeStoreInner.WellFormed.empty.insertNew rfl).insertNew rfl) [] (by decide),
    by decide⟩

end Alone

end Virtiofsd
