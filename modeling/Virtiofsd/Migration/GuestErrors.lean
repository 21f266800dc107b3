/-
  # Migrations that make do with errors (`--migration-on-error=guest-error`)

  With this setting, an inode or a handle the destination cannot open becomes invalid, and
  the guest gets an error when it uses it.  The rest of the migration goes on.  What is left
  that can end it (`Restorable`):

  * the options the guest has negotiated are not available on the destination;
  * the root is not sent as the root;
  * the paths of some inodes lead nowhere;
  * a HANDLE is open whose inode the guest has forgotten.  Then `deserialize_with_fs` finds no
    inode for it, and no setting helps.

  The last one is not meant to be there: a handle without an inode could be invalid like one
  that cannot be opened.
-/
import Virtiofsd.Passthrough.Parts
import Virtiofsd.Migration.Interleaving
import Virtiofsd.Migration.RoundTrip

namespace Virtiofsd

open Lib Prog List World

/-! ## 1. What a source sends -/

/-- **What every source sends**: each inode once, and each with at least one reference for
every inode that is found below it. -/
structure Sent (table : List SerializedInode) : Prop where
  nodup : (table.map SerializedInode.id).Nodup
  positive : ∀ n ∈ table, 0 < n.refcount
  children : ∀ n ∈ table, pathChildren table n.id ≤ n.refcount

/-- The references to an inode that no other inode accounts for: the lookups of the guest. -/
def spare (table : List SerializedInode) (i : Inode) : Nat :=
  (table.find? fun n => n.id = i).elim 0 SerializedInode.refcount - pathChildren table i

variable {table : List SerializedInode} {n : SerializedInode} {i : Inode}

variable {mountPaths : List (Nat × Name)} {w' : World}

theorem Sent.spare_eq (h : Sent table) (hn : n ∈ table) :
    spare table n.id = n.refcount - pathChildren table n.id := by
  have hfind : table.find? (fun m => m.id = n.id) = some n := by
    cases hf : table.find? (fun m => m.id = n.id) with
    | none =>
      have hnot := find?_eq_none.mp hf n hn
      simp at hnot
    | some m =>
      have hid : m.id = n.id := by simpa using find?_some hf
      rw [inj_on_of_nodup_map h.nodup (mem_of_find?_eq_some hf) hn hid]
  rw [spare, hfind]
  rfl

/-- Such a table is one of RoundTrip's, if all its locations make sense. -/
theorem Sent.sourceTable (h : Sent table) (hfrom : ∀ n ∈ table, n.FromSource) :
    SourceTable table (spare table) where
  nodup := h.nodup
  fromSource := hfrom
  refcount n hn := by
    have hle := h.children n hn
    rw [h.spare_eq hn]
    omega
  positive := h.positive

section Source

variable {s : InodeStoreInner} (cfg : Config) {τ : Multiset Ref}

/-- The cells of the inodes in the store, in order. -/
def InodeStoreInner.liveCells (s : InodeStoreInner) : List Cell := s.inodes.filterMap s.cell?

theorem serializedInodes_eq (s : InodeStoreInner) :
    serializedInodes cfg s = s.liveCells.map (Cell.serialized cfg) :=
  map_filterMap.symm

/-- What is sent of a cell: its location, or `invalid` if there is none. -/
theorem serialized_cases (c : Cell) : ∃ location fileHandle,
    c.serialized cfg = ⟨c.data.inode, c.refcount, location, fileHandle⟩ ∧
      (location = .invalid ∨ ∃ info, c.migrationInfo = some info ∧
        location = info.location.asSerialized) := by
  unfold Cell.serialized Cell.asSerialized
  cases c.migrationInfo with
  | none => exact ⟨_, _, rfl, .inl rfl⟩
  | some info =>
    cases cfg.migrationVerifyHandles with
    | false => exact ⟨_, _, rfl, .inr ⟨info, rfl, rfl⟩⟩
    | true =>
      cases hfh : info.fileHandle with
      | none => exact ⟨.invalid, none, by simp [hfh], .inl rfl⟩
      | some fh => exact ⟨_, some fh, by simp [hfh], .inr ⟨info, rfl, rfl⟩⟩

theorem serialized_id (c : Cell) : (c.serialized cfg).id = c.data.inode := by
  obtain ⟨location, fileHandle, heq, -⟩ := serialized_cases cfg c
  rw [heq]

theorem serialized_refcount (c : Cell) :
    (c.serialized cfg).refcount = c.refcount := by
  obtain ⟨location, fileHandle, heq, -⟩ := serialized_cases cfg c
  rw [heq]

/-- An inode that is sent with a path has a reference to the parent on the source. -/
theorem strongReference_of_parent {cfg : Config} {c : Cell} {p : Inode}
    (h : (c.serialized cfg).parent = some p) : c.strongReference = some p := by
  obtain ⟨f, hf⟩ := SerializedInode.parent_eq_some.mp h
  obtain ⟨location, fileHandle, heq, hlocation⟩ := serialized_cases cfg c
  rw [heq] at hf
  obtain rfl : location = .path p f := hf
  rcases hlocation with hlocation | ⟨info, hinfo, hlocation⟩
  · cases hlocation
  · rw [Cell.strongReference, hinfo, Option.bind_some]
    unfold InodeMigrationInfo.strongReference
    cases hl : info.location with
    | path parent filename =>
      rw [hl] at hlocation
      cases hlocation
      rfl
    | rootNode | fileHandle => rw [hl] at hlocation; cases hlocation

theorem InodeStoreInner.WellFormed.cell?_inode (h : s.WellFormed) {c : Cell}
    (hc : s.cell? i = some c) : c.data.inode = i := by
  obtain ⟨a, ha, hca⟩ := Option.bind_eq_some_iff.mp hc
  obtain ⟨d, hd, hid⟩ := h.stored i a ha
  rw [hca] at hd
  cases hd
  exact hid

/-- The inodes in the store, by id. -/
theorem InodeStoreInner.WellFormed.inode_liveCells (h : s.WellFormed) :
    s.liveCells.map (fun c => c.data.inode) = s.inodes := by
  unfold InodeStoreInner.liveCells
  rw [map_filterMap]
  have hsome : ∀ i ∈ s.inodes, (s.cell? i).map (fun c => c.data.inode) = some i := by
    intro i hi
    have hkey : i ∈ s.data := by
      rw [AList.mem_keys]
      exact (mem_insertionSort _).mp hi
    obtain ⟨a, ha⟩ := Option.isSome_iff_exists.mp (AList.lookup_isSome.mpr hkey)
    obtain ⟨c, hc, hid⟩ := h.stored i a ha
    simp [InodeStoreInner.cell?, ha, hc, hid]
  generalize s.inodes = l at hsome ⊢
  induction l with
  | nil => rfl
  | cons i l ih =>
    rw [filterMap_cons_some (f := fun i => (s.cell? i).map fun c => c.data.inode)
      (hsome i mem_cons_self), ih fun j hj => hsome j (mem_cons_of_mem _ hj)]

theorem InodeStoreInner.nodup_inodes (s : InodeStoreInner) : s.inodes.Nodup :=
  (perm_insertionSort _ _).nodup_iff.mpr s.data.keys_nodup

/-- The cells of the store, each at most once. -/
theorem InodeStoreInner.WellFormed.liveCells_subperm (h : s.WellFormed) :
    s.liveCells.Subperm s.cells := by
  refine Nodup.subperm ?_ fun c hc => ?_
  · refine Nodup.of_map (fun c => c.data.inode) ?_
    rw [h.inode_liveCells]
    exact s.nodup_inodes
  · obtain ⟨i, -, hi⟩ := mem_filterMap.mp hc
    obtain ⟨a, -, ha⟩ := Option.bind_eq_some_iff.mp hi
    exact mem_of_getElem? ha

/-- Strong references, one cell after the other. -/
theorem InodeStoreInner.strongRefs_eq_filterMap (s : InodeStoreInner) :
    s.strongRefs = (s.cells.filterMap Cell.strongReference : List Inode) := by
  unfold InodeStoreInner.strongRefs
  induction s.cells with
  | nil => rfl
  | cons c l ih =>
    rw [map_cons, sum_cons, ih, infoRefs_eq]
    cases hc : c.strongReference with
    | none => rw [filterMap_cons_none hc]; exact zero_add _
    | some p => rw [filterMap_cons_some hc]; rfl

/-- The parents that are sent are referred to on the source. -/
theorem pathChildren_le_strongRefs (h : s.WellFormed) (i : Inode) :
    pathChildren (serializedInodes cfg s) i ≤ s.strongRefs.count i := by
  have hparents : ∀ l : List Cell, ((l.map (Cell.serialized cfg)).filterMap
      SerializedInode.parent).Sublist (l.filterMap Cell.strongReference) := by
    intro l
    induction l with
    | nil => exact .slnil
    | cons c l ih =>
      rw [map_cons]
      cases hp : (c.serialized cfg).parent with
      | none =>
        rw [filterMap_cons_none hp]
        cases hc : c.strongReference with
        | none => rwa [filterMap_cons_none hc]
        | some p => rw [filterMap_cons_some hc]; exact ih.cons p
      | some p =>
        rw [filterMap_cons_some hp, filterMap_cons_some (strongReference_of_parent hp)]
        exact ih.cons_cons p
  rw [s.strongRefs_eq_filterMap, Multiset.coe_count, serializedInodes_eq]
  calc pathChildren (s.liveCells.map (Cell.serialized cfg)) i
      ≤ (s.liveCells.filterMap Cell.strongReference).count i := (hparents _).count_le i
    _ ≤ (s.cells.filterMap Cell.strongReference).count i := by
      obtain ⟨l, hperm, hsub⟩ := h.liveCells_subperm
      rw [← (hperm.filterMap Cell.strongReference).count_eq]
      exact (hsub.filterMap _).count_le i

/-- An inode that is sent is in the store. -/
theorem of_mem_serializedInodes {cfg : Config} (h : s.WellFormed)
    (hn : n ∈ serializedInodes cfg s) :
    s.refcount n.id = n.refcount ∧ ∃ a c, s.data.lookup n.id = some a ∧ s.cells[a]? = some c := by
  rw [serializedInodes_eq] at hn
  obtain ⟨c, hc, rfl⟩ := mem_map.mp hn
  obtain ⟨i, -, hi⟩ := mem_filterMap.mp hc
  obtain rfl := h.cell?_inode hi
  rw [serialized_id, serialized_refcount, InodeStoreInner.refcount, hi]
  obtain ⟨a, ha, hca⟩ := Option.bind_eq_some_iff.mp hi
  exact ⟨rfl, a, c, ha, hca⟩

/-- **What the store of a session sends.** -/
theorem sent_of_owned (h : s.Owned τ) : Sent (serializedInodes cfg s) where
  nodup := by
    have hids : (serializedInodes cfg s).map SerializedInode.id = s.inodes := by
      rw [serializedInodes_eq, map_map, ← h.wellFormed.inode_liveCells]
      exact map_congr_left fun c _ => serialized_id cfg c
    rw [hids]
    exact s.nodup_inodes
  positive n hn := by
    obtain ⟨heq, a, c, ha, hc⟩ := of_mem_serializedInodes h.wellFormed hn
    obtain ⟨d, hd, -, hpos, -⟩ := h.balanced.cell n.id a ha
    rw [← heq, InodeStoreInner.refcount, InodeStoreInner.cell?, ha, Option.bind_some, hd]
    exact hpos
  children n hn := by
    obtain ⟨heq, -⟩ := of_mem_serializedInodes h.wellFormed hn
    have hle := pathChildren_le_strongRefs cfg h.wellFormed n.id
    rw [← heq, h.balanced.refcount_eq, Multiset.count_add]
    omega

/-- An inode in the store is sent. -/
theorem mem_serializedInodes {c : Cell} (h : s.WellFormed) (hc : s.cell? i = some c) :
    c.serialized cfg ∈ serializedInodes cfg s ∧ (c.serialized cfg).id = i := by
  refine ⟨?_, (serialized_id cfg c).trans (h.cell?_inode hc)⟩
  obtain ⟨a, ha, -⟩ := Option.bind_eq_some_iff.mp hc
  have hkey : i ∈ s.data := AList.lookup_isSome.mp (by simp [ha])
  have hi : i ∈ s.inodes := (mem_insertionSort _).mpr (AList.mem_keys.mp hkey)
  exact mem_filterMap.mpr ⟨i, hi, by rw [hc]; rfl⟩

/-- **The guest's lookups are spare references.** -/
theorem spare_of_owned {guest : Multiset Inode} (h : s.Owned τ)
    (hguest : guest ≤ τ.map Ref.inode) (hi : i ∈ guest) :
    ∃ n ∈ serializedInodes cfg s, n.id = i ∧ 0 < spare (serializedInodes cfg s) i := by
  have hcount : 1 ≤ (τ.map Ref.inode).count i :=
    (Multiset.one_le_count_iff_mem.mpr hi).trans (Multiset.count_le_of_le i hguest)
  cases hl : s.data.lookup i with
  | none =>
    have hgone := h.balanced.gone i hl
    rw [Multiset.count_add] at hgone
    omega
  | some a =>
    obtain ⟨c, hc, -, -, hrefcount⟩ := h.balanced.cell i a hl
    have hcell : s.cell? i = some c := by rw [InodeStoreInner.cell?, hl, Option.bind_some, hc]
    obtain ⟨hmem, hid⟩ := mem_serializedInodes cfg h.wellFormed hcell
    refine ⟨_, hmem, hid, ?_⟩
    have hle := pathChildren_le_strongRefs cfg h.wellFormed i
    rw [← hid, (sent_of_owned cfg h).spare_eq hmem, hid, serialized_refcount, hrefcount,
      Multiset.count_add]
    omega

end Source

/-! ## 2. What a destination can restore -/

/-- The options of the source are available on the destination. -/
def NegotiatedOpts.AllowedBy (cfg : Config) (o : NegotiatedOpts) : Prop :=
  (o.writeback = true → cfg.writeback = true) ∧
    (o.announceSubmounts = true → cfg.announceSubmounts = true) ∧
      (o.posixAcl = true → cfg.posixAcl ≠ .never)

/-- **What a destination can restore**, with invalid inodes and handles where it has to. -/
structure Restorable (cfg : Config) (state : SerializedFs) : Prop where
  options : state.negotiatedOpts.AllowedBy cfg
  /-- Mount paths are relative to the root. -/
  root : state.inodes = [] ∨ state.mountPaths = [] ∨
    ∃ n ∈ state.inodes, n.id = ROOT_ID ∧ n.location = .rootNode
  locations : ∀ n ∈ state.inodes, n.FromSource
  grounded : ∀ n ∈ state.inodes, Grounded state.inodes n.id
  /-- The inode of a handle has references other than those of the inodes below it. -/
  handles : ∀ h ∈ state.handles, ∃ n ∈ state.inodes, n.id = h.inode ∧
    pathChildren state.inodes n.id < n.refcount

variable {cfg : Config} {w : World}

/-- How the options are applied. -/
theorem options_run (cfg : Config) (o : NegotiatedOpts) (w : World) :
    (o.AllowedBy cfg ∧ ∃ w', (liftM (o.apply cfg) : SessionM Unit).run performSession w =
      (.ok (), w')) ∨
    (¬ o.AllowedBy cfg ∧ ∃ e w', (liftM (o.apply cfg) : SessionM Unit).run performSession w =
      (.err e, w')) := by
  unfold NegotiatedOpts.apply
  dsimp only
  by_cases h₁ : (!cfg.writeback && o.writeback) = true
  · rw [if_pos h₁]
    refine .inr ⟨fun h => ?_, _, _, rfl⟩
    have hallowed := h.1
    simp_all
  by_cases h₂ : (!cfg.announceSubmounts && o.announceSubmounts) = true
  · rw [if_neg h₁, if_pos h₂]
    refine .inr ⟨fun h => ?_, _, _, rfl⟩
    have hallowed := h.2.1
    simp_all
  by_cases h₃ : (decide (cfg.posixAcl = .never) && o.posixAcl) = true
  · rw [if_neg h₁, if_neg h₂, if_pos h₃]
    refine .inr ⟨fun h => ?_, _, _, rfl⟩
    have hallowed := h.2.2
    simp_all
  · rw [if_neg h₁, if_neg h₂, if_neg h₃]
    refine .inl ⟨⟨?_, ?_, ?_⟩, _, rfl⟩ <;> grind

/-! ## 3. The root -/

/-- The destination cannot open its shared directory, or it is not the one of the source. -/
def RootFailsToOpen (cfg : Config) (table : List SerializedInode) (e : IoError) (w' : World) :
    Prop :=
  ∃ n ∈ table, n.location = .rootNode ∧ ∃ w,
    (n.deserializeRootNode cfg).run World.performSession w = (.err e, w') ∨
      ∃ root : InodeRef, (liftM (errContext root.data.getFile "Cannot open shared directory") :
        SessionM Fd).run World.performSession w = (.err e, w')

/-- **The root is opened**: when restoring the inodes fails, it is for another reason. -/
def OpensRoot (cfg : Config) (state : SerializedFs) (w : World) : Prop :=
  ∀ w₁ e w', (liftM (state.negotiatedOpts.apply cfg) : SessionM Unit).run
      World.performSession w = (.ok (), w₁) →
    (restoreInodes cfg state.mountPaths state.inodes).run World.performSession w₁ = (.err e, w') →
      ¬ RootFailsToOpen cfg state.inodes e w'

theorem of_deserializeRootNode_run
    (hr : (n.deserializeRootNode cfg).run performSession w = (.ok (), w')) :
    n.id = ROOT_ID ∧ n.location = .rootNode := by
  unfold SerializedInode.deserializeRootNode at hr
  split at hr
  · cases hr
  · rename_i hid
    split at hr
    · cases hr
    · rename_i hlocation
      exact ⟨not_not.mp hid, not_not.mp hlocation⟩

/-- What restoring the root has done that has not failed. -/
theorem of_restoreRoot_run {mountFds : List (Nat × Nat)} {rest : List SerializedInode}
    (hr : (restoreRoot cfg mountPaths table).run performSession w = (.ok (mountFds, rest),
      w')) :
    (table = [] ∨ mountPaths = [] ∨ ∃ n ∈ table, n.id = ROOT_ID ∧ n.location = .rootNode) ∧
      ∀ n ∈ table, n ∈ rest ∨ n.FromSource := by
  unfold restoreRoot at hr
  split at hr
  · rename_i hnone
    cases hr
    refine ⟨?_, fun n hn => .inl hn⟩
    rcases Bool.or_eq_true_iff.mp hnone with h | h
    · exact .inl (isEmpty_iff.mp h)
    · exact .inr (.inl (isEmpty_iff.mp h))
  · split at hr
    · cases hr
    · rename_i i hidx
      split at hr
      · cases hr
      · rename_i root hroot
        have hmem : root ∈ table := mem_of_getElem? hroot
        obtain ⟨_, w₁, hnode, hr⟩ := of_run_bind _ hr
        obtain ⟨hid, hlocation⟩ := of_deserializeRootNode_run hnode
        obtain ⟨found, w₂, -, hr⟩ := of_run_bind _ hr
        refine ⟨.inr (.inr ⟨root, hmem, hid, hlocation⟩), fun n hn => ?_⟩
        have hrest : rest = swapRemove table i := by
          cases found with
          | none => cases hr
          | some node =>
            obtain ⟨file, w₃, -, hr⟩ := of_run_bind _ hr
            obtain ⟨mounts, w₄, -, hr⟩ := of_run_bind _ hr
            cases hr
            rfl
        rw [hrest]
        rcases mem_cons.mp ((perm_swapRemove hroot).mem_iff.mp hn) with rfl | hn
        · exact .inr (by simpa [SerializedInode.FromSource, hlocation] using hid)
        · exact .inl hn

/-- The mounts are opened as far as possible. -/
theorem openMountFds_run (root : Fd) : ∀ (mountPaths : List (Nat × Name)) (w : World),
    ∃ mounts w', (liftM (openMountFds root mountPaths) : SessionM (List (Nat × Nat))).run
      performSession w = (.ok mounts, w')
  | [], w => ⟨[], w, rfl⟩
  | (source, path) :: rest, w => by
    have hmount : NoPanic (newMountFd root path) (fun _ => True) := by
      refine (errContext_meets (openatStr_meets _ _ _)).bind fun fd _ => ?_
      exact (errContext_meets (statx_meets fd none)).bind fun _ _ => Obeys.ret trivial
    obtain ⟨mount, w₁, hr₁, -, -⟩ := hmount.attempt_session w
    obtain ⟨mounts, w₂, hr₂⟩ := openMountFds_run root rest w₁
    unfold openMountFds
    rw [bind_eq, session_bind, run_bind_of_ok _ hr₁, bind_eq, session_bind,
      run_bind_of_ok _ hr₂]
    cases mount with
    | ok | error => exact ⟨_, _, rfl⟩

/-- Why restoring the root fails. -/
theorem of_restoreRoot_err {e : IoError}
    (hsent : table = [] ∨ mountPaths = [] ∨ ∃ n ∈ table, n.id = ROOT_ID ∧ n.location = .rootNode)
    (hnodup : (table.map SerializedInode.id).Nodup)
    (hr : (restoreRoot cfg mountPaths table).run performSession w = (.err e, w')) :
    RootFailsToOpen cfg table e w' := by
  unfold restoreRoot at hr
  split at hr
  · cases hr
  · rename_i hnonempty
    obtain ⟨n, hn, hid, hlocation⟩ : ∃ n ∈ table, n.id = ROOT_ID ∧ n.location = .rootNode := by
      rcases hsent with rfl | rfl | h
      · simp at hnonempty
      · simp at hnonempty
      · exact h
    split at hr
    · rename_i hidx
      have hnot := findIdx?_eq_none_iff.mp hidx n hn
      simp [hid] at hnot
    · rename_i i hidx
      obtain ⟨hlt, hroot, -⟩ := findIdx?_eq_some_iff_getElem.mp hidx
      have hmem : table[i] = n := by
        refine inj_on_of_nodup_map hnodup (getElem_mem hlt) hn ?_
        rw [hid]
        simpa using hroot
      rw [getElem?_eq_getElem hlt, hmem] at hr
      dsimp only at hr
      refine ⟨n, hn, hlocation, ?_⟩
      rcases of_run_bind_err _ hr with hnode | ⟨_, w₁, hnode, hr₁⟩
      · exact ⟨w, .inl hnode⟩
      · obtain ⟨found, w₂, -, hr₂⟩ | hquery := (of_run_bind_err _ hr₁).symm
        · cases found with
          | none => cases hr₂
          | some node =>
            rcases of_run_bind_err _ hr₂ with hfile | ⟨file, w₃, -, hr₃⟩
            · exact ⟨w₂, .inr ⟨node, hfile⟩⟩
            · obtain ⟨mounts, w₄, hmounts⟩ := openMountFds_run file mountPaths w₃
              rw [bind_eq, run_bind_of_ok _ hmounts] at hr₃
              cases hr₃
        · cases hquery

/-! ## 4. The inodes -/

/-- An attempt that has not failed was at an inode with a location that makes sense. -/
theorem fromSource_of_processed {mountFds : List (Nat × Nat)}
    (hpath : ∀ f, n.location ≠ .fullPath f)
    (h : Deferral.Processed World.performSession
      (SerializedInode.deserializeWithFs cfg mountFds) n) :
    n.FromSource := by
  obtain ⟨w, w', hr⟩ := h
  unfold SerializedInode.deserializeWithFs at hr
  unfold SerializedInode.FromSource
  cases hl : n.location with
  | rootNode =>
    rw [hl] at hr
    dsimp only at hr ⊢
    split at hr
    · cases hr
    · rename_i hid
      exact not_not.mp hid
  | path | fileHandle =>
    rw [hl] at hr
    dsimp only at hr ⊢
    split at hr
    · cases hr
    · assumption
  | invalid => trivial
  | fullPath f => exact absurd hl (hpath f)

/-- A source never sends a full path. -/
theorem not_fullPath {s : InodeStoreInner} (hn : n ∈ serializedInodes cfg s) :
    ∀ f, n.location ≠ .fullPath f := by
  intro f hf
  rw [serializedInodes_eq] at hn
  obtain ⟨c, -, rfl⟩ := mem_map.mp hn
  obtain ⟨location, fileHandle, heq, hlocation⟩ := serialized_cases cfg c
  rw [heq] at hf
  obtain rfl : location = .fullPath f := hf
  rcases hlocation with hlocation | ⟨info, -, hlocation⟩
  · cases hlocation
  · cases hl : info.location <;> rw [hl] at hlocation <;> cases hlocation

/-- **What restoring the inodes needs**, if it does not fail. -/
theorem of_restoreInodes_run (hpath : ∀ n ∈ table, ∀ f, n.location ≠ .fullPath f)
    (hr : (restoreInodes cfg mountPaths table).run performSession w = (.ok (), w')) :
    (table = [] ∨ mountPaths = [] ∨ ∃ n ∈ table, n.id = ROOT_ID ∧ n.location = .rootNode) ∧
      ∀ n ∈ table, n.FromSource := by
  unfold restoreInodes at hr
  obtain ⟨_, w₁, -, hr⟩ := of_run_bind _ hr
  obtain ⟨⟨mountFds, rest⟩, w₂, hroot, hr⟩ := of_run_bind _ hr
  obtain ⟨hsent, hrest⟩ := of_restoreRoot_run hroot
  refine ⟨hsent, fun n hn => ?_⟩
  rcases hrest n hn with hn' | hn'
  · exact fromSource_of_processed (hpath n hn) (Deferral.loop_processed _ _ hr n hn')
  · exact hn'

/-- The inodes on the destination are those with spare references. -/
theorem Restoring.get_iff {held : Inode → Nat} (h : Restoring table held [] w) (i : Inode) :
    (∃ r, w.fs.inodes.get i = some r) ↔ i ∈ table.map SerializedInode.id ∧ 0 < held i := by
  rw [← (h.holdsExactly i).1]
  obtain ⟨done, own, h⟩ := h
  constructor
  · rintro ⟨r, hr⟩
    unfold InodeStoreInner.contains
    rw [(InodeStoreInner.get_eq_some.mp hr).1]
    rfl
  · intro hc
    exact h.get_of_count ((h.contains_iff i).mp hc)

/-! ## 5. The handles -/

/-- Actions that leave the open handles alone. -/
def LeavesHandles : NeutralAct → Prop
  | .host _ => True
  | .query .allocateFd => True
  | _ => False

theorem leavesHandles_run {α : Type} {p : NeutralM α}
    (hp : Keeps LeavesHandles (fun _ _ => True) p fun _ => True) (w : World) :
    ((liftM p : SessionM α).run performSession w).2.fs.handles = w.fs.handles := by
  have hsession : Keeps (fun a : SessionAct => ∃ b, a = .act (.neutral b) ∧ LeavesHandles b)
      (fun _ _ => True) (liftM p : SessionM α) fun _ => True :=
    (hp.mapAct (fun b hb => ⟨b, rfl, hb⟩) fun _ _ _ => trivial : Keeps
      (fun a : Act => ∃ b, a = .neutral b ∧ LeavesHandles b) (fun _ _ => True)
        (liftM p : FsM α) fun _ => True).mapAct
      (fun a ha => by
        obtain ⟨b, rfl, hb⟩ := ha
        exact ⟨b, rfl, hb⟩) fun _ _ _ => trivial
  refine (hsession.run (I := fun w' : World => w'.fs.handles = w.fs.handles) ?_ rfl).2
  rintro a w' ⟨b, rfl, hb⟩ hw'
  refine ⟨trivial, ?_⟩
  rw [← hw']
  cases b with
  | host c => rfl
  | query q =>
    cases q with
    | allocateFd =>
      simp only [performSession, World.perform, PassthroughFs.answer]
      split <;> rfl
    | _ => exact hb.elim

theorem leavesHandles_calls : HostParts .offGuest fun {α : Type} (p : NeutralM α) =>
    Keeps LeavesHandles (fun _ _ => True) p fun _ => True where
  toCompositional := Keeps.compositional _ _
  host _ _ := Obeys.perform trivial

/-- Opening the file of a handle touches neither inodes nor handles. -/
theorem openFile_attempt (h : SerializedHandle) (d : InodeData) (w : World) :
    ∃ r w', (liftM (h.openFile d).attempt : SessionM (Except IoError Fd)).run
      performSession w = (.ok r, w') ∧ w'.fs.inodes = w.fs.inodes ∧
        w'.fs.handles = w.fs.handles := by
  have hopen : NoPanic (h.openFile d) (fun _ => True) :=
    (errContext_meets (openFile_meets d h.flags)).bind fun fd _ =>
      allocateFd_meets.bind fun _ _ => Obeys.ret trivial
  have hkeeps : Keeps LeavesHandles (fun _ _ => True) (h.openFile d).attempt fun _ => True := by
    have hfile := leavesHandles_calls.openFile d (CallClass.opens_offGuest h.flags)
    refine Obeys.attempt (leavesHandles_calls.bind (leavesHandles_calls.errContext hfile) ?_)
    refine fun fd => leavesHandles_calls.map ((Obeys.perform trivial).bind fun r _ => ?_)
    cases r with
    | true => exact Obeys.ret trivial
    | false => exact Obeys.err
  obtain ⟨r, w', hr, hinodes, -⟩ := hopen.attempt_session w
  refine ⟨r, w', hr, hinodes, ?_⟩
  have hrun := leavesHandles_run hkeeps w
  rwa [hr] at hrun

variable (hcfg : cfg.migrationOnError = .guestError)

include hcfg in
/-- **A handle is restored if its inode is there.** -/
theorem handle_run (h : SerializedHandle) {r : InodeRef} (hr : w.fs.inodes.get h.inode = some r) :
    ∃ d w', (liftM (h.deserializeWithFs cfg) : SessionM Unit).run performSession w =
      (.ok (), w') ∧ d.inode = h.inode ∧ w'.fs.inodes = w.fs.inodes ∧
        w'.fs.handles = w.fs.handles.insert h.id d := by
  obtain ⟨file, w₁, hfile, hinodes, hhandles⟩ := openFile_attempt h r.data w
  have hquery : (liftM (query (.get h.inode)) : SessionM (Option InodeRef)).run
      performSession w = (.ok (some r), w) := by
    rw [← hr]
    rfl
  unfold SerializedHandle.deserializeWithFs
  rw [bind_eq, session_bind, run_bind_of_ok _ hquery]
  dsimp only
  rw [bind_eq, session_bind, run_bind_of_ok _ hfile, hcfg]
  have hinsert : ∀ d, (liftM (query (.insertHandle h.id d)) : SessionM Unit).run
      performSession w₁ = (.ok (), { w₁ with
        fs := { w₁.fs with handles := w₁.fs.handles.insert h.id d } }) := fun _ => rfl
  refine ⟨⟨h.inode, file, fileType r.data.mode, h.flags⟩, { w₁ with fs := { w₁.fs with
    handles := w₁.fs.handles.insert h.id ⟨h.inode, file, fileType r.data.mode, h.flags⟩ } },
    ?_, rfl, hinodes, by rw [← hhandles]⟩
  cases file with
  | ok | error => exact hinsert _

include hcfg in
/-- **All handles are restored if all their inodes are there.** -/
theorem restoreHandles_run : ∀ (handles : List SerializedHandle) (w : World),
    (∀ h ∈ handles, ∃ r, w.fs.inodes.get h.inode = some r) →
      ∃ w', (liftM (restoreHandles cfg handles) : SessionM Unit).run performSession w =
        (.ok (), w') ∧ w'.fs.inodes = w.fs.inodes ∧
          ∀ k, (k ∈ handles.map SerializedHandle.id ∨ k ∈ w.fs.handles) → k ∈ w'.fs.handles
  | [], w, _ => ⟨w, rfl, rfl, fun k hk => by simpa using hk⟩
  | h :: rest, w, hall => by
    obtain ⟨r, hr⟩ := hall h mem_cons_self
    obtain ⟨d, w₁, hrun, -, hinodes, hhandles⟩ := handle_run hcfg h hr
    obtain ⟨w₂, hrun₂, hinodes₂, hkeep⟩ := restoreHandles_run rest w₁ fun h' hh' => by
      rw [hinodes]
      exact hall h' (mem_cons_of_mem _ hh')
    refine ⟨w₂, ?_, hinodes₂.trans hinodes, fun k hk => hkeep k ?_⟩
    · unfold restoreHandles
      rw [bind_eq, session_bind, run_bind_of_ok _ hrun, hrun₂]
    · rw [hhandles, AList.mem_insert]
      rcases hk with hk | hk
      · rcases mem_cons.mp hk with rfl | hk
        · exact .inr (.inl rfl)
        · exact .inl hk
      · exact .inr (.inr hk)

/-- What restoring the handles needs, if it does not fail. -/
theorem of_restoreHandles_run : ∀ (handles : List SerializedHandle) {w w' : World},
    (liftM (restoreHandles cfg handles) : SessionM Unit).run performSession w = (.ok (), w') →
      ∀ h ∈ handles, ∃ r, w.fs.inodes.get h.inode = some r
  | [], _, _, _, _, hh => by simp at hh
  | h :: rest, w, w', hr, k, hk => by
    unfold restoreHandles at hr
    rw [bind_eq, session_bind] at hr
    obtain ⟨_, w₁, hrun, hrest⟩ := of_run_bind _ hr
    have hinodes : w₁.fs.inodes = w.fs.inodes := by
      have hneutral := neutral_session_inodes (h.deserializeWithFs cfg) w
      rwa [hrun] at hneutral
    rcases mem_cons.mp hk with rfl | hk
    · cases hget : w.fs.inodes.get k.inode with
      | some r => exact ⟨r, rfl⟩
      | none =>
        have hquery : (liftM (query (.get k.inode)) : SessionM (Option InodeRef)).run
            performSession w = (.ok none, w) := by
          rw [← hget]
          rfl
        unfold SerializedHandle.deserializeWithFs at hrun
        rw [bind_eq, session_bind, run_bind_of_ok _ hquery] at hrun
        cases hrun
    · rw [← hinodes]
      exact of_restoreHandles_run rest hrest k hk

/-! ## 6. The whole migration -/

/-- **A complete migration**: it does not fail, and all inodes on which the guest holds lookups
and all handles it has open are there, usable or invalid. -/
def Migrates (cfg : Config) (guest : Multiset Inode) (state : SerializedFs) (w : World) : Prop :=
  ∃ w', (state.apply cfg).run World.performSession w = (.ok (), w') ∧
    (∀ i ∈ guest, w'.fs.inodes.contains i = true) ∧ ∀ h ∈ state.handles, h.id ∈ w'.fs.handles

section Whole

variable {state : SerializedFs} {guest : Multiset Inode}

/-- The handle's inode, in the table and on the destination. -/
theorem handles_iff (hsent : Sent state.inodes) (h : SerializedHandle) :
    (∃ n ∈ state.inodes, n.id = h.inode ∧ pathChildren state.inodes n.id < n.refcount) ↔
      h.inode ∈ state.inodes.map SerializedInode.id ∧ 0 < spare state.inodes h.inode := by
  constructor
  · rintro ⟨n, hn, hid, hlt⟩
    refine ⟨hid ▸ mem_map_of_mem hn, ?_⟩
    rw [← hid, hsent.spare_eq hn]
    omega
  · rintro ⟨hmem, hpos⟩
    obtain ⟨n, hn, hid⟩ := mem_map.mp hmem
    refine ⟨n, hn, hid, ?_⟩
    rw [← hid, hsent.spare_eq hn] at hpos
    omega

include hcfg in
/-- What a migration needs that does not fail. -/
theorem Migrates.restorable (hsent : Sent state.inodes)
    (hpath : ∀ n ∈ state.inodes, ∀ f, n.location ≠ .fullPath f)
    (h : Migrates cfg guest state w) : Restorable cfg state := by
  obtain ⟨w', hr, -, -⟩ := h
  obtain ⟨w₁, w₂, w₃, hoptions, hinodes, hhandles, -⟩ := SerializedFs.apply_run_iff.mp hr
  obtain ⟨hroot, hlocations⟩ := of_restoreInodes_run hpath hinodes
  have hend := restoreInodes_run hcfg (hsent.sourceTable hlocations) state.mountPaths w₁
  rw [hinodes] at hend
  cases hend with
  | done hdone =>
    refine ⟨?_, hroot, hlocations, fun n hn => hdone.grounded hn, fun h hh => ?_⟩
    · rcases options_run cfg state.negotiatedOpts w with ⟨hallowed, -⟩ | ⟨-, e, w₀, herr⟩
      · exact hallowed
      · rw [hoptions] at herr
        cases herr
    · have hget := of_restoreHandles_run state.handles hhandles h hh
      exact (handles_iff hsent h).mpr ((hdone.get_iff h.inode).mp hget)

include hcfg in
/-- **What can be restored is restored.** -/
theorem Restorable.migrates (hsent : Sent state.inodes)
    (hguest : ∀ i ∈ guest, ∃ n ∈ state.inodes, n.id = i ∧ 0 < spare state.inodes i)
    (hroot : OpensRoot cfg state w) (h : Restorable cfg state) : Migrates cfg guest state w := by
  obtain ⟨w₁, hoptions⟩ : ∃ w₁, (liftM (state.negotiatedOpts.apply cfg) : SessionM Unit).run
      performSession w = (.ok (), w₁) := by
    rcases options_run cfg state.negotiatedOpts w with ⟨-, hok⟩ | ⟨hnot, -⟩
    · exact hok
    · exact absurd h.options hnot
  have hend := restoreInodes_run hcfg (hsent.sourceTable h.locations) state.mountPaths w₁
  rcases hr : (restoreInodes cfg state.mountPaths state.inodes).run performSession w₁ with
    ⟨o, w₂⟩
  rw [hr] at hend
  cases hend with
  | unresolved hnot =>
    obtain ⟨n, hn, hng⟩ := hnot
    exact absurd (h.grounded n hn) hng
  | rootFailed hfails =>
    refine absurd ?_ (hroot w₁ _ w₂ hoptions hr)
    rcases hfails with ⟨w₀, hfails⟩ | ⟨n, hn, hlocation, w₀, hfails⟩
    · exact of_restoreRoot_err h.root hsent.nodup hfails
    · exact ⟨n, hn, hlocation, w₀, .inl hfails⟩
  | done hdone =>
    -- the handles come last, with all inodes in place
    obtain ⟨w₃, hhandles, hstore, hkeep⟩ := restoreHandles_run hcfg state.handles
      (w₂.cleared state.nextInode) fun k hk =>
        (hdone.get_iff k.inode).mpr ((handles_iff hsent k).mp (h.handles k hk))
    refine ⟨_, SerializedFs.apply_run_iff.mpr ⟨w₁, w₂, w₃, hoptions, hr, hhandles, rfl⟩,
      fun i hi => ?_, fun k hk => hkeep _ (.inl (mem_map_of_mem hk))⟩
    · obtain ⟨n, hn, rfl, hpos⟩ := hguest i hi
      show w₃.fs.inodes.contains n.id = true
      rw [hstore]
      exact (hdone.holdsExactly n.id).1.mpr ⟨mem_map_of_mem hn, hpos⟩

end Whole

/-- **A migration with guest errors is complete exactly if it can be restored.**  The source may
be in any state of a session in which the guest forgets no more than it holds, and the
destination may fail to open whatever it likes but the root. -/
theorem guest_error_migration_iff {x : Export} {src : Config} {s : System}
    (h : Reachable x src WithinHeld s) (hcfg : cfg.migrationOnError = .guestError)
    (mountPaths : List (Nat × Name)) (w : World)
    (hroot : OpensRoot cfg (s.pool.shared.serialized src mountPaths) w) :
    Migrates cfg s.guest (s.pool.shared.serialized src mountPaths) w ↔
      Restorable cfg (s.pool.shared.serialized src mountPaths) := by
  obtain ⟨lost, hok⟩ := h.accounted
  have howned : s.inodes.Owned (guestRefs s.guest + lost + s.pool.tokens) := hok.inv
  have hsent : Sent (serializedInodes src s.inodes) := sent_of_owned src howned
  constructor
  · exact Migrates.restorable hcfg hsent fun n hn => not_fullPath hn
  · refine Restorable.migrates hcfg hsent (fun i hi => spare_of_owned src howned ?_ hi) hroot
    rw [Multiset.map_add, Multiset.map_add, map_inode_guestRefs, add_assoc]
    exact Multiset.le_add_right _ _

/-! ## 7. A handle of a forgotten inode -/

/-- The system right after INIT, with descriptors to spare. -/
def roomySystem : System := ⟨⟨(initLedger 8).world.fs, []⟩, initialRefs⟩

theorem roomySystem_reachable (x : Export) (ok : System → Job → Prop) :
    Reachable x Config.default ok roomySystem := by
  have h : (PassthroughFs.init Config.default 0).run performSession (freshWorld 8) =
      (.ok 0x6000, (initLedger 8).world) := rfl
  exact .init h

/-- Serve a request until it is answered. -/
def System.served (r : Request) (s : System) : System :=
  (s.start .readWrite Config.default (.request r)).advance treeHost 20

theorem Reachable.served {s : System} (r : Request)
    (h : Reachable .readWrite Config.default WithinHeld s) (hr : r.forgets ≤ s.guest) :
    Reachable .readWrite Config.default WithinHeld (s.served r) := by
  have hstart : s.Step .readWrite Config.default WithinHeld
      (s.start .readWrite Config.default (.request r)) := .start hr
  exact (h.step hstart).advance treeHost 20

/-- LOOKUP of `a`, which is inode 2, and OPEN. -/
def openedA : System :=
  (roomySystem.served (.lookup ROOT_ID [0x61])).served (.file (.open 2 false O_RDONLY))

/-- FORGET of the one lookup of `a`, while it is open. -/
def forgottenA : System := openedA.served (.forget 2 1)

theorem Reachable.served_of_no_forgets {s : System} (r : Request)
    (h : Reachable .readWrite Config.default WithinHeld s) (hr : r.forgets = 0) :
    Reachable .readWrite Config.default WithinHeld (s.served r) :=
  h.served r (by rw [hr]; exact Multiset.zero_le _)

theorem openedA_reachable : Reachable .readWrite Config.default WithinHeld openedA :=
  ((roomySystem_reachable .readWrite WithinHeld).served_of_no_forgets
    (.lookup ROOT_ID [0x61]) rfl).served_of_no_forgets (.file (.open 2 false O_RDONLY)) rfl

theorem forgottenA_reachable : Reachable .readWrite Config.default WithinHeld forgottenA :=
  openedA_reachable.served (.forget 2 1) (by decide +kernel)

def succeeded : Outcome IoError PanicSite Unit → Bool
  | .ok _ => true
  | .err _ => false
  | .panic _ => false

/-- A destination on which restoring the inodes goes well has opened the root. -/
theorem opensRoot_of_succeeded {state : SerializedFs}
    (hr : succeeded (((liftM (state.negotiatedOpts.apply cfg) : SessionM Unit).bind fun _ =>
      restoreInodes cfg state.mountPaths state.inodes).run performSession w).1 = true) :
    OpensRoot cfg state w := by
  intro w₁ e w' hoptions herr
  rw [run_bind_of_ok _ hoptions, herr] at hr
  cases hr

theorem eq_ok_of_succeeded {o : Outcome IoError PanicSite Unit} (h : succeeded o = true) :
    o = .ok () := by
  cases o with
  | ok _ => rfl
  | err | panic => cases h

theorem migrates_of_succeeded {guest : Multiset Inode} {state : SerializedFs}
    (hok : succeeded ((state.apply cfg).run performSession w).1 = true)
    (hinodes : ∀ i ∈ guest,
      ((state.apply cfg).run performSession w).2.fs.inodes.contains i = true)
    (hhandles : ∀ h ∈ state.handles,
      h.id ∈ ((state.apply cfg).run performSession w).2.fs.handles) :
    Migrates cfg guest state w :=
  ⟨_, Prod.ext (eq_ok_of_succeeded hok) rfl, hinodes, hhandles⟩

/-- With the lookup, `a` and its handle are migrated. -/
theorem openedA_migrates : Migrates guestErrors openedA.guest
    (openedA.pool.shared.serialized Config.default []) (freshWorld 8) :=
  migrates_of_succeeded (by decide +kernel) (by decide +kernel) (by decide +kernel)

theorem guest_error_migration_openedA :
    (openedA.pool.shared.serialized Config.default []).handles.length = 1 ∧
      Restorable guestErrors (openedA.pool.shared.serialized Config.default []) :=
  ⟨by decide +kernel, (guest_error_migration_iff openedA_reachable rfl [] (freshWorld 8)
    (opensRoot_of_succeeded (by decide +kernel))).mp openedA_migrates⟩

/-- **Without it, the migration fails** although everything could be opened. -/
theorem forgotten_inode_ends_migration :
    Reachable .readWrite Config.default WithinHeld forgottenA ∧
      OpensRoot guestErrors (forgottenA.pool.shared.serialized Config.default []) (freshWorld 8) ∧
      (∃ h ∈ (forgottenA.pool.shared.serialized Config.default []).handles, h.inode = 2) ∧
      ¬ Migrates guestErrors forgottenA.guest (forgottenA.pool.shared.serialized Config.default [])
        (freshWorld 8) := by
  refine ⟨forgottenA_reachable, opensRoot_of_succeeded (by decide +kernel), by decide +kernel, ?_⟩
  rintro ⟨w', hr, -, -⟩
  have herr : succeeded (((forgottenA.pool.shared.serialized Config.default []).apply
      guestErrors).run World.performSession (freshWorld 8)).1 = false := by decide +kernel
  rw [hr] at herr
  cases herr

end Virtiofsd
