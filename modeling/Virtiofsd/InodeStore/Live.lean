/-
  # Which inodes a reference keeps alive

  Two facts about the inode store that go beyond the refcount equation:

  * `WellFormed`: the maps of the store agree.  An id in `data` leads to an `InodeData` with
    that id, and an entry of `by_ids` or `by_handle` to an inode with these ids or this
    handle, so the `unwrap` of `get_by_ids` and `get_by_handle` cannot fail.  This does not
    depend on anyone counting right;
  * `Owned s τ`: the references `τ` held outside the store are all accounted for, and the
    `Arc` in a strong reference is the one the store has under the inode's id.

  A reference is one unit of some inode's refcount (`Ref`).  A `StrongInodeReference` knows
  its `InodeData`; a reference that was LEAKED to the guest is only an inode id.
-/
import Virtiofsd.InodeStore.Balance

namespace Virtiofsd

open List

namespace InodeStoreInner

/-! ## 1. What the operations are made of -/

/-- **The store is edited**: an `InodeData` gets another refcount or loses its info, or an inode
is removed.  No inode gets a new `InodeData`, no `InodeData` a new parent. -/
inductive Edits (s : InodeStoreInner) : InodeStoreInner → Prop
  | refl : Edits s s
  | setCell {s' a c d} (h : Edits s s') (hc : s'.cells[a]? = some c) (hd : d.data = c.data)
      (hinfo : d.migrationInfo = none ∨ d.migrationInfo = c.migrationInfo)
      (hpos : 0 < c.refcount → 0 < d.refcount) : Edits s (s'.setCell a d)
  | remove {s' i a c n} (h : Edits s s') (hl : s'.data.lookup i = some a)
      (hc : s'.cells[a]? = some c) : Edits s (s'.removed a c n)

variable {s s' s'' : InodeStoreInner} {a n : Nat} {c d : Cell} {i j : Inode}

namespace Edits

theorem forgetLoop : ∀ (fuel : Nat) {s' : InodeStoreInner}, Edits s s' →
    ∀ (i : Inode) (count : Nat), Edits s (InodeStoreInner.forgetLoop fuel s' i count)
  | 0, _, h, _, _ => h
  | fuel + 1, _, h, i, count => by
    unfold InodeStoreInner.forgetLoop
    split
    · exact h
    rename_i hl
    split
    · exact h
    rename_i hc
    dsimp only
    split
    · split
      · exact forgetLoop fuel (h.remove hl hc) _ 1
      · exact h.remove hl hc
    · rename_i hpos
      exact h.setCell hc rfl (.inr rfl) fun _ => Nat.pos_of_ne_zero hpos

theorem forgetOne (h : Edits s s') (i : Inode) (count : Nat) : Edits s (s'.forgetOne i count) :=
  forgetLoop _ h i count

theorem forgetMany : ∀ (requests : List (Inode × Nat)) {s' : InodeStoreInner}, Edits s s' →
    Edits s (s'.forgetMany requests)
  | [], _, h => h
  | (i, n) :: requests, _, h => forgetMany requests (h.forgetOne i n)

theorem incrementRefcount (r : InodeRef) : Edits s (s.incrementRefcount r).2 := by
  unfold InodeStoreInner.incrementRefcount
  split
  · rename_i hd
    split
    · exact refl.setCell (deref_eq_some hd).1 rfl (.inr rfl) fun _ => Nat.succ_pos _
    · exact refl
  · exact refl

theorem claimInode (handle : Option FileHandle) (ids : InodeIds) :
    Edits s (s.claimInode handle ids).2 := by
  unfold InodeStoreInner.claimInode
  split
  · rename_i r _
    have hinc := @incrementRefcount s r
    split <;> simp_all
  · exact refl
  · exact refl

theorem takeInfos : ∀ (is : List Inode) {s' : InodeStoreInner}, Edits s s' →
    Edits s (InodeStoreInner.takeInfos is s').2
  | [], _, h => h
  | i :: is, _, h => by
    unfold InodeStoreInner.takeInfos
    split
    · exact takeInfos is h
    split
    · exact takeInfos is h
    split
    · exact takeInfos is h
    · rename_i hc
      exact takeInfos is (h.setCell hc rfl (.inl rfl) id)

theorem clearMigrationInfo : Edits s s.clearMigrationInfo := by
  have hforget := forgetMany ((InodeStoreInner.takeInfos s.inodes s).1.map (·, 1))
    (takeInfos s.inodes (refl (s := s)))
  rwa [InodeStoreInner.forgetMany, foldl_map] at hforget

end Edits

/-! ## 2. The maps of the store agree -/

/-- **The maps of the store agree.** -/
structure WellFormed (s : InodeStoreInner) : Prop where
  stored : ∀ i a, s.data.lookup i = some a → ∃ c, s.cells[a]? = some c ∧ c.data.inode = i
  byIds : ∀ ids i, s.byIds.lookup ids = some i → ∃ r, s.get i = some r ∧ r.data.ids = ids
  byHandle : ∀ h i, s.byHandle.lookup h = some i →
    ∃ r, s.get i = some r ∧ indexHandle r.data = some h

theorem get_eq_some {r : InodeRef} :
    s.get i = some r ↔ s.data.lookup i = some r.addr ∧
      ∃ c, s.cells[r.addr]? = some c ∧ c.data = r.data := by
  unfold get
  cases hl : s.data.lookup i with
  | none => simp
  | some a =>
    simp only [Option.bind_some, Option.map_eq_some_iff, Option.some.injEq]
    constructor
    · rintro ⟨c, hc, rfl⟩
      exact ⟨rfl, c, hc, rfl⟩
    · rintro ⟨rfl, c, hc, hd⟩
      exact ⟨c, hc, by rw [hd]⟩

theorem get_setCell (hc : s.cells[a]? = some c) (hd : d.data = c.data) (j : Inode) :
    (s.setCell a d).get j = s.get j := by
  unfold get
  rw [setCell_data]
  cases s.data.lookup j with
  | none => rfl
  | some b =>
    simp only [Option.bind_some, getElem?_setCell hc]
    split
    · rename_i hb
      rw [hb, hc, Option.map_some, Option.map_some, hd]
    · rfl

theorem get_eq_map : s.get i = (s.data.lookup i).bind fun a => (s.cell? i).map (⟨a, ·.data⟩) := by
  unfold get cell?
  cases s.data.lookup i <;> rfl

theorem WellFormed.empty : WellFormed InodeStoreInner.empty where
  stored i a h := by simp [InodeStoreInner.empty] at h
  byIds ids i h := by simp [InodeStoreInner.empty] at h
  byHandle h i hl := by simp [InodeStoreInner.empty] at hl

theorem WellFormed.get_inode (h : s.WellFormed) {r : InodeRef} (hr : s.get i = some r) :
    r.data.inode = i := by
  obtain ⟨hl, c, hc, hd⟩ := get_eq_some.mp hr
  obtain ⟨c₀, hc₀, hi⟩ := h.stored i _ hl
  obtain rfl : c = c₀ := by simpa [hc] using hc₀
  rw [← hd, hi]

theorem WellFormed.setCell (h : s.WellFormed) (hc : s.cells[a]? = some c)
    (hd : d.data = c.data) : (s.setCell a d).WellFormed where
  stored j b hj := by
    obtain ⟨c₀, hc₀, hi⟩ := h.stored j b hj
    rw [getElem?_setCell hc]
    split
    · rename_i hb
      obtain rfl : c = c₀ := by
        rw [hb, hc] at hc₀
        exact Option.some.inj hc₀
      exact ⟨d, rfl, by rw [hd, hi]⟩
    · exact ⟨c₀, hc₀, hi⟩
  byIds ids j hj := by
    rw [get_setCell hc hd]
    exact h.byIds ids j hj
  byHandle fh j hj := by
    rw [get_setCell hc hd]
    exact h.byHandle fh j hj

theorem get_removed (h : s.Stored) (hl : s.data.lookup i = some a) (hc : s.cells[a]? = some c) :
    (s.removed a c n).get j = if j = i then none else s.get j := by
  rw [get_eq_map, cell?_removed h hl hc, lookup_removed h hl hc, get_eq_map]
  split <;> rfl

/-- The inode that is removed is the only one the two indexes lose. -/
theorem WellFormed.remove (h : s.WellFormed) (hl : s.data.lookup i = some a)
    (hc : s.cells[a]? = some c) : (s.removed a c n).WellFormed := by
  have hget : s.get i = some ⟨a, c.data⟩ := get_eq_some.mpr ⟨hl, c, hc, rfl⟩
  refine ⟨Stored.removed h.stored hl hc, fun ids j hj => ?_, fun fh j hj => ?_⟩
  · have hids : ids ≠ c.data.ids := by
      rintro rfl
      exact absurd (hj.symm.trans (AList.lookup_erase _ _)) nofun
    obtain ⟨r, hr, hrids⟩ := h.byIds ids j ((AList.lookup_erase_ne hids).symm.trans hj)
    rw [get_removed h.stored hl hc, if_neg]
    · exact ⟨r, hr, hrids⟩
    · rintro rfl
      obtain rfl := Option.some.inj (hget.symm.trans hr)
      exact hids hrids.symm
  · have hkeep : s.byHandle.lookup fh = some j ∧ indexHandle c.data ≠ some fh := by
      simp only [removed, detach, Cell.released] at hj
      split at hj
      · rename_i fh' hfh'
        by_cases heq : fh = fh'
        · rw [heq, AList.lookup_erase] at hj
          cases hj
        · rw [AList.lookup_erase_ne heq] at hj
          exact ⟨hj, fun h' => heq (Option.some.inj (h'.symm.trans hfh'))⟩
      · rename_i hnone
        exact ⟨hj, by simp [hnone]⟩
    obtain ⟨r, hr, hrfh⟩ := h.byHandle fh j hkeep.1
    rw [get_removed h.stored hl hc, if_neg]
    · exact ⟨r, hr, hrfh⟩
    · rintro rfl
      obtain rfl := Option.some.inj (hget.symm.trans hr)
      exact hkeep.2 hrfh

theorem get_insertNew (h : s.Stored) : (s.insertNew c).2.get j =
    if j = c.data.inode then some ⟨s.cells.length, c.data⟩ else s.get j := by
  rw [get_eq_map, cell?_insertNew h, lookup_insertNew, get_eq_map]
  split <;> rfl

/-- A new inode hides no other one. -/
theorem get_insertNew_of_get (h : s.Stored) (hnew : s.contains c.data.inode = false)
    {r : InodeRef} (hr : s.get i = some r) : (s.insertNew c).2.get i = some r := by
  rw [get_insertNew h, if_neg, hr]
  rintro rfl
  rw [contains, (get_eq_some.mp hr).1] at hnew
  cases hnew

theorem get_insertNew_self :
    (s.insertNew c).2.get c.data.inode = some ⟨s.cells.length, c.data⟩ := by
  simp [get, InodeStoreInner.insertNew]

theorem WellFormed.insertNew (h : s.WellFormed) (hnew : s.contains c.data.inode = false) :
    (s.insertNew c).2.WellFormed := by
  refine ⟨?_, ?_, ?_⟩
  · intro j a hj
    have hcell := cell?_insertNew (c := c) (j := j) h.stored
    rw [cell?, hj, Option.bind_some] at hcell
    rw [hcell]
    rw [lookup_insertNew] at hj
    split at hj
    · exact ⟨c, if_pos ‹_›, Eq.symm ‹_›⟩
    · rw [if_neg ‹_›, cell?, hj]
      exact h.stored j a hj
  · intro ids j hj
    by_cases hids : ids = c.data.ids
    · rw [hids] at hj ⊢
      obtain rfl : c.data.inode = j := by simpa [InodeStoreInner.insertNew] using hj
      exact ⟨_, get_insertNew_self, rfl⟩
    · have hj' : s.byIds.lookup ids = some j := by
        simpa [InodeStoreInner.insertNew, AList.lookup_insert_ne hids] using hj
      obtain ⟨r, hr, hrids⟩ := h.byIds ids j hj'
      exact ⟨r, get_insertNew_of_get h.stored hnew hr, hrids⟩
  · intro fh j hj
    -- either the new inode's own handle or one that was there before
    have hcases : (indexHandle c.data = some fh ∧ j = c.data.inode) ∨
        s.byHandle.lookup fh = some j := by
      simp only [InodeStoreInner.insertNew] at hj
      split at hj
      · rename_i fh' hfh'
        by_cases heq : fh = fh'
        · rw [heq, AList.lookup_insert] at hj
          exact .inl ⟨by rw [heq, hfh'], (Option.some.inj hj).symm⟩
        · rw [AList.lookup_insert_ne heq] at hj
          exact .inr hj
      · exact .inr hj
    rcases hcases with ⟨hfh, rfl⟩ | hold
    · exact ⟨_, get_insertNew_self, hfh⟩
    · obtain ⟨r, hr, hrfh⟩ := h.byHandle fh j hold
      exact ⟨r, get_insertNew_of_get h.stored hnew hr, hrfh⟩

theorem WellFormed.edits (h : s.WellFormed) (he : Edits s s') : s'.WellFormed := by
  induction he with
  | refl => exact h
  | setCell _ hc hd _ _ ih => exact ih.setCell hc hd
  | remove _ hl hc ih => exact ih.remove hl hc

theorem WellFormed.exchangeInfo (h : s.WellFormed) (r : InodeRef)
    (info : Option InodeMigrationInfo) : (s.exchangeInfo r info).2.WellFormed := by
  unfold InodeStoreInner.exchangeInfo
  split
  · rename_i c hd
    exact h.setCell (deref_eq_some hd).1 rfl
  · exact h

theorem WellFormed.getOrInsert (h : s.WellFormed) (d : InodeData)
    (info : Option InodeMigrationInfo) : (s.getOrInsert d info).2.WellFormed := by
  unfold InodeStoreInner.getOrInsert
  have hclaim := h.edits (.claimInode (indexHandle d) d.ids)
  split
  · rename_i hk; rw [hk] at hclaim; exact hclaim
  · rename_i hk; rw [hk] at hclaim; exact hclaim
  · rename_i hk
    rw [hk] at hclaim
    split
    · exact hclaim
    · rename_i hnew
      exact hclaim.insertNew (c := ⟨d, 1, info⟩) (by simpa using hnew)

theorem WellFormed.newInode (h : s.WellFormed) (hs : s.newInode c = some s') :
    s'.WellFormed := by
  unfold InodeStoreInner.newInode at hs
  split at hs
  · simp at hs
  · rename_i hnew
    cases hs
    exact h.insertNew (by simpa using hnew)

/-- **The index entries lead somewhere**: the `unwrap`s of `get_by_ids` and `get_by_handle`
cannot fail. -/
theorem WellFormed.findInode_ne_dangling (h : s.WellFormed) (handle : Option FileHandle)
    (ids : InodeIds) : s.findInode handle ids ≠ .dangling := by
  unfold InodeStoreInner.findInode
  split
  · rename_i i hi
    obtain ⟨fh, -, hfh⟩ := Option.bind_eq_some_iff.mp hi
    obtain ⟨r, hr, -⟩ := h.byHandle fh i hfh
    simp [hr]
  · split
    · rename_i i hi
      obtain ⟨r, hr, -⟩ := h.byIds ids i hi
      rw [hr]
      simp only
      split <;> simp
    · simp

theorem WellFormed.claimInode_ne_dangling (h : s.WellFormed) (handle : Option FileHandle)
    (ids : InodeIds) : (s.claimInode handle ids).1 ≠ .dangling := by
  unfold InodeStoreInner.claimInode
  split
  · split <;> simp
  · simp
  · rename_i hf
    exact absurd hf (h.findInode_ne_dangling handle ids)

theorem WellFormed.getOrInsert_ne_dangling (h : s.WellFormed) (d : InodeData)
    (info : Option InodeMigrationInfo) : (s.getOrInsert d info).1 ≠ .dangling := by
  unfold InodeStoreInner.getOrInsert
  split
  · simp
  · rename_i hk
    have := h.claimInode_ne_dangling (indexHandle d) d.ids
    rw [hk] at this
    exact absurd rfl this
  · split <;> simp

/-! ## 3. What an operation leaves in place -/

/-- **What edits leave in place.** -/
structure Kept (s s' : InodeStoreInner) : Prop where
  length : s'.cells.length = s.cells.length
  lookup : ∀ i a, s'.data.lookup i = some a → s.data.lookup i = some a
  cell : ∀ (a : Nat) (c : Cell), s.cells[a]? = some c →
    ∃ d : Cell, s'.cells[a]? = some d ∧ d.data = c.data
  info : ∀ (a : Nat) (d : Cell), s'.cells[a]? = some d → d.migrationInfo = none ∨
    ∃ c : Cell, s.cells[a]? = some c ∧ d.migrationInfo = c.migrationInfo

theorem Kept.refl (s : InodeStoreInner) : Kept s s where
  length := rfl
  lookup _ _ h := h
  cell _ c h := ⟨c, h, rfl⟩
  info _ d h := .inr ⟨d, h, rfl⟩

theorem Kept.trans (h : Kept s s') (h' : Kept s' s'') : Kept s s'' where
  length := h'.length.trans h.length
  lookup i a hi := h.lookup i a (h'.lookup i a hi)
  cell a c hc := by
    obtain ⟨d, hd, hcd⟩ := h.cell a c hc
    obtain ⟨e, he, hde⟩ := h'.cell a d hd
    exact ⟨e, he, hde.trans hcd⟩
  info a e he := by
    rcases h'.info a e he with hnone | ⟨d, hd, hed⟩
    · exact .inl hnone
    · rcases h.info a d hd with hnone | ⟨c, hc, hdc⟩
      · exact .inl (hed.trans hnone)
      · exact .inr ⟨c, hc, hed.trans hdc⟩

theorem Kept.setCell (hc : s.cells[a]? = some c) (hd : d.data = c.data)
    (hinfo : d.migrationInfo = none ∨ d.migrationInfo = c.migrationInfo) :
    Kept s (s.setCell a d) where
  length := length_set
  lookup _ _ h := h
  cell b c₀ hb := by
    rw [getElem?_setCell hc]
    split
    · rename_i hba
      obtain rfl : c = c₀ := by
        rw [hba, hc] at hb
        exact Option.some.inj hb
      exact ⟨d, rfl, hd⟩
    · exact ⟨c₀, hb, rfl⟩
  info b e he := by
    rw [getElem?_setCell hc] at he
    split at he
    · rename_i hba
      cases he
      rcases hinfo with hnone | hsame
      · exact .inl hnone
      · exact .inr ⟨c, by rw [hba, hc], hsame⟩
    · exact .inr ⟨e, he, rfl⟩

theorem Kept.detach (hc : s.cells[a]? = some c) : Kept s (s.detach a c) where
  length := length_set
  lookup i b hi := by
    by_cases hic : i = c.data.inode
    · rw [hic] at hi
      simp [InodeStoreInner.detach] at hi
    · simpa [InodeStoreInner.detach, AList.lookup_erase_ne hic] using hi
  cell := (Kept.setCell (d := { c with migrationInfo := none }) hc rfl (.inl rfl)).cell
  info := (Kept.setCell (d := { c with migrationInfo := none }) hc rfl (.inl rfl)).info

theorem Kept.removed (hc : s.cells[a]? = some c) : Kept s (s.removed a c n) :=
  (Kept.setCell (d := c.released n) hc rfl (.inr rfl)).trans
    (Kept.detach (by rw [getElem?_setCell hc, if_pos rfl]))

theorem Edits.kept (h : Edits s s') : Kept s s' := by
  induction h with
  | refl => exact Kept.refl s
  | setCell _ hc hd hinfo _ ih => exact ih.trans (Kept.setCell hc hd hinfo)
  | remove _ _ hc ih => exact ih.trans (Kept.removed hc)

/-! ## 4. References and their owners -/

end InodeStoreInner

/-- **A reference**: one unit of an inode's refcount.  `strong` is a
`StrongInodeReference`; `guest` is a lookup the guest holds. -/
inductive Ref where
  | strong (r : InodeRef)
  | guest (i : Inode)
  deriving DecidableEq

/-- The inode a reference counts for. -/
def Ref.inode : Ref → Inode
  | .strong r => r.data.inode
  | .guest i => i

/-- The parent an optional migration info has a strong reference to. -/
def infoParent (info : Option InodeMigrationInfo) : Option InodeRef :=
  match info with
  | some ⟨.path parent _, _⟩ => some parent
  | _ => none

/-- The strong reference in an optional migration info. -/
def infoTokens (info : Option InodeMigrationInfo) : Multiset Ref :=
  match infoParent info with
  | some parent => {.strong parent}
  | none => 0

variable (info : Option InodeMigrationInfo)

theorem infoRefs_eq_infoParent :
    infoRefs info = match infoParent info with
      | some parent => {parent.data.inode}
      | none => 0 := by
  rcases info with _ | ⟨_ | _ | _, _⟩ <;> rfl

@[simp] theorem infoTokens_none : infoTokens none = 0 := rfl

@[simp] theorem map_inode_infoTokens :
    (infoTokens info).map Ref.inode = infoRefs info := by
  rw [infoRefs_eq_infoParent, infoTokens]
  cases infoParent info <;> rfl

theorem strong_mem_infoTokens {info : Option InodeMigrationInfo} {r : InodeRef}
    (h : Ref.strong r ∈ infoTokens info) : infoParent info = some r := by
  unfold infoTokens at h
  cases hp : infoParent info with
  | none => simp [hp] at h
  | some p =>
    rw [hp] at h
    simp only [Multiset.mem_singleton, Ref.strong.injEq] at h
    rw [h]

/-! ## 5. Every reference keeps its inode -/

namespace InodeStoreInner

variable {s s' : InodeStoreInner} {τ τ' : Multiset Ref} {i : Inode} {r : InodeRef} {c : Cell}

/-- **All references are accounted for.**  `τ` are the references held outside the store. -/
structure Owned (s : InodeStoreInner) (τ : Multiset Ref) : Prop where
  balanced : s.Balanced (τ.map Ref.inode)
  wellFormed : s.WellFormed
  /-- A strong reference points to what the store has under the inode's id. -/
  live : ∀ r, Ref.strong r ∈ τ → s.get r.data.inode = some r
  /-- So does the one to the parent in a migration info. -/
  parent : ∀ c ∈ s.cells, ∀ r, infoParent c.migrationInfo = some r →
    s.get r.data.inode = some r

theorem Owned.empty : Owned InodeStoreInner.empty 0 where
  balanced := Balanced.empty
  wellFormed := WellFormed.empty
  live r h := by simp at h
  parent c h := by simp [InodeStoreInner.empty] at h

theorem infoRefs_le_strongRefs (hc : c ∈ s.cells) : infoRefs c.migrationInfo ≤ s.strongRefs := by
  unfold strongRefs
  generalize s.cells = l at hc ⊢
  induction l with
  | nil => simp at hc
  | cons d l ih =>
    rw [map_cons, sum_cons]
    rcases mem_cons.mp hc with rfl | hc
    · exact Multiset.le_add_right _ _
    · exact le_trans (ih hc) (Multiset.le_add_left _ _)

/-- The inode of a parent reference is in the store. -/
theorem Balanced.lookup_of_parent {own : Multiset Inode} (h : s.Balanced own) (hc : c ∈ s.cells)
    (hr : infoParent c.migrationInfo = some r) : ∃ a, s.data.lookup r.data.inode = some a := by
  have hle := infoRefs_le_strongRefs hc
  rw [infoRefs_eq_infoParent, hr, Multiset.singleton_le] at hle
  cases hl : s.data.lookup r.data.inode with
  | some a => exact ⟨a, rfl⟩
  | none =>
    have h0 := h.gone _ hl
    have h1 := Multiset.one_le_count_iff_mem.mpr hle
    rw [Multiset.count_add] at h0
    omega

theorem Kept.get (h : Kept s s') (hr : s.get i = some r) {a : Nat}
    (ha : s'.data.lookup i = some a) : s'.get i = some r := by
  obtain ⟨hl, c, hc, hd⟩ := get_eq_some.mp hr
  obtain rfl : r.addr = a := Option.some.inj (hl.symm.trans (h.lookup i a ha))
  obtain ⟨d, hd', hcd⟩ := h.cell _ c hc
  exact get_eq_some.mpr ⟨ha, d, hd', hcd.trans hd⟩

/-- **References survive edits**: the refcount equation says the inode is still there, and then
it is the same one. -/
theorem Owned.edits (h : s.Owned τ) (he : Edits s s') (hb : s'.Balanced (τ'.map Ref.inode))
    (hτ : ∀ r, Ref.strong r ∈ τ' → s.get r.data.inode = some r) : s'.Owned τ' where
  balanced := hb
  wellFormed := h.wellFormed.edits he
  live r hr := by
    obtain ⟨a, ha⟩ := hb.lookup_of_mem (Multiset.mem_map_of_mem Ref.inode hr)
    exact he.kept.get (hτ r hr) ha
  parent d hd r hr := by
    obtain ⟨a, ha⟩ := hb.lookup_of_parent hd hr
    obtain ⟨n, hn⟩ := mem_iff_getElem?.mp hd
    rcases he.kept.info n d hn with hnone | ⟨c, hc, hinfo⟩
    · rw [hnone] at hr
      simp [infoParent] at hr
    · exact he.kept.get (h.parent c (mem_of_getElem? hc) r (hinfo ▸ hr)) ha

theorem Owned.live_of_le (h : s.Owned τ) (hle : τ' ≤ τ) :
    ∀ r, Ref.strong r ∈ τ' → s.get r.data.inode = some r :=
  fun r hr => h.live r (Multiset.mem_of_le hle hr)

theorem Balanced.get_of_incrementRefcount {own : Multiset Inode} (h : s.Balanced own)
    (hr : s.incrementRefcount r = (true, s')) : s.get r.data.inode = some r := by
  obtain ⟨c, hc, hdata, -, -⟩ := of_incrementRefcount hr
  exact get_eq_some.mpr ⟨h.lookup_of_incrementRefcount hr, c, hc, hdata⟩

theorem Owned.incrementRefcount (h : s.Owned τ) (hr : s.incrementRefcount r = (true, s')) :
    s'.Owned (τ + {.strong r}) := by
  have he := @Edits.incrementRefcount s r
  rw [hr] at he
  refine h.edits he ?_ ?_
  · simpa [Ref.inode] using h.balanced.incrementRefcount hr
  · intro r' hr'
    rcases Multiset.mem_add.mp hr' with hr' | hr'
    · exact h.live r' hr'
    · obtain rfl : r' = r := by simpa using hr'
      exact h.balanced.get_of_incrementRefcount hr

/-- **`StrongInodeReference::clone` succeeds.** -/
theorem Owned.incrementRefcount_of_strong (h : s.Owned τ) (hr : Ref.strong r ∈ τ) :
    (s.incrementRefcount r).1 = true :=
  h.balanced.incrementRefcount_of_mem (h.live r hr)

/-- A lookup the guest holds can be turned back into a strong reference. -/
theorem Owned.get_of_guest (h : s.Owned τ) (hi : Ref.guest i ∈ τ) : ∃ r, s.get i = some r := by
  obtain ⟨r, hr, -⟩ := h.balanced.get_of_mem (Multiset.mem_map_of_mem Ref.inode hi)
  exact ⟨r, hr⟩

theorem Owned.claimInode {handle : Option FileHandle} {ids : InodeIds} (h : s.Owned τ)
    (hr : s.claimInode handle ids = (.found r, s')) : s'.Owned (τ + {.strong r}) :=
  h.incrementRefcount (incrementRefcount_of_claimInode hr)

/-- What `get_or_insert` gives to its caller, who gave it the references in `info`. -/
def insertionTokens (info : Option InodeMigrationInfo) : Insertion → Multiset Ref
  | .found r => {.strong r} + infoTokens info
  | .inserted r => {.strong r}
  | .doubleUse => infoTokens info
  | .dangling => infoTokens info

theorem map_inode_insertionTokens (k : Insertion) :
    (insertionTokens info k).map Ref.inode = insertionGives info k := by
  cases k <;> simp [insertionTokens, insertionGives, Ref.inode]

/-- Inserting a new inode: the reference in its migration info moves into the store. -/
theorem Owned.insertNew (h : s.Owned (τ + infoTokens c.migrationInfo))
    (hnew : s.contains c.data.inode = false)
    (hb : (s.insertNew c).2.Balanced (τ'.map Ref.inode))
    (hτ : ∀ r, Ref.strong r ∈ τ' → Ref.strong r ∈ τ ∨ r = (s.insertNew c).1) :
    (s.insertNew c).2.Owned τ' where
  balanced := hb
  wellFormed := h.wellFormed.insertNew hnew
  live r hr := by
    rcases hτ r hr with hr | rfl
    · exact get_insertNew_of_get h.wellFormed.stored hnew
        (h.live r (Multiset.mem_add.mpr (.inl hr)))
    · exact get_insertNew_self
  parent d hd r hr := by
    refine get_insertNew_of_get h.wellFormed.stored hnew ?_
    rcases mem_append.mp hd with hd | hd
    · exact h.parent d hd r hr
    · obtain rfl : d = c := by simpa using hd
      refine h.live r (Multiset.mem_add.mpr (.inr ?_))
      simp [infoTokens, hr]

/-- A new inode without a path: its refcount is the number of lookups the guest holds. -/
theorem Owned.newInode (h : s.Owned τ) (hinfo : infoTokens c.migrationInfo = 0)
    (hpos : 0 < c.refcount) (hs : s.newInode c = some s') :
    s'.Owned (τ + Multiset.replicate c.refcount (.guest c.data.inode)) := by
  unfold InodeStoreInner.newInode at hs
  split at hs
  · simp at hs
  · rename_i hnew
    cases hs
    have hnew' : s.contains c.data.inode = false := by simpa using hnew
    have h' : s.Owned (τ + infoTokens c.migrationInfo) := by rwa [hinfo, add_zero]
    refine h'.insertNew hnew' ?_ ?_
    · have hb : s.Balanced (τ.map Ref.inode + infoRefs c.migrationInfo) := by
        simpa using h'.balanced
      simpa [Ref.inode] using hb.insertNew hnew' hpos
    · intro r hr
      rcases Multiset.mem_add.mp hr with hr | hr
      · exact .inl hr
      · exact absurd (Multiset.eq_of_mem_replicate hr) (by simp)

theorem Owned.getOrInsert {d : InodeData} {info : Option InodeMigrationInfo} {k : Insertion}
    (h : s.Owned (τ + infoTokens info)) (hr : s.getOrInsert d info = (k, s')) :
    s'.Owned (τ + insertionTokens info k) := by
  have hb : s'.Balanced ((τ + insertionTokens info k).map Ref.inode) := by
    rw [Multiset.map_add, map_inode_insertionTokens]
    refine Balanced.getOrInsert ?_ hr
    simpa using h.balanced
  rcases getOrInsert_cases s d info with ⟨r, heq, hclaim⟩ | ⟨heq, -⟩ | heq | ⟨heq, -, hnew⟩ <;>
    obtain ⟨rfl, rfl⟩ := Prod.mk.inj (heq.symm.trans hr)
  · have := h.claimInode (Prod.ext hclaim rfl)
    rwa [add_assoc, add_comm (infoTokens info)] at this
  · exact h
  · exact h
  · have h' : Owned _ (τ + infoTokens (Cell.mk d 1 info).migrationInfo) := h
    refine h'.insertNew hnew hb ?_
    intro r hr
    simpa [insertionTokens] using hr

/-- Exchanging a migration info: the caller gives the references in the new one and gets
those in the old one. -/
theorem Owned.exchangeInfo {info old : Option InodeMigrationInfo}
    (h : s.Owned (τ + infoTokens info)) (hr : s.exchangeInfo r info = (old, s')) :
    s'.Owned (τ + infoTokens old) := by
  have hb : s'.Balanced ((τ + infoTokens old).map Ref.inode) := by
    rw [Multiset.map_add, map_inode_infoTokens]
    have hgive : s.Balanced (τ.map Ref.inode + infoRefs info) := by simpa using h.balanced
    exact hgive.exchangeInfo hr
  unfold InodeStoreInner.exchangeInfo at hr
  cases hd : s.deref r with
  | none =>
    simp only [hd, Prod.mk.injEq] at hr
    obtain ⟨rfl, rfl⟩ := hr
    exact h
  | some c =>
    obtain ⟨hc, -⟩ := deref_eq_some hd
    simp only [hd, Prod.mk.injEq] at hr
    obtain ⟨rfl, rfl⟩ := hr
    have hget : ∀ j, (s.setCell r.addr { c with migrationInfo := info }).get j = s.get j :=
      get_setCell hc rfl
    refine ⟨hb, h.wellFormed.setCell hc rfl, ?_, ?_⟩
    · intro r' hr'
      rw [hget]
      rcases Multiset.mem_add.mp hr' with hr' | hr'
      · exact h.live r' (Multiset.mem_add.mpr (.inl hr'))
      · exact h.parent c (mem_of_getElem? hc) r' (strong_mem_infoTokens hr')
    · intro e he r' hr'
      rw [hget]
      rcases mem_or_eq_of_mem_set he with he | rfl
      · exact h.parent e he r' hr'
      · refine h.live r' (Multiset.mem_add.mpr (.inr ?_))
        simp [infoTokens, show infoParent info = some r' from hr']

/-- Dropping a strong reference. -/
theorem Owned.dropRef (h : s.Owned (τ + {.strong r})) :
    (s.forgetOne r.data.inode 1).Owned τ := by
  refine h.edits (Edits.refl.forgetOne _ _) ?_ (h.live_of_le (Multiset.le_add_right _ _))
  have hcount : 1 ≤ ((τ + {Ref.strong r}).map Ref.inode).count r.data.inode := by
    simp [Ref.inode]
  simpa [Ref.inode] using h.balanced.forgetOne hcount

theorem Owned.forgetOne {n : Nat} (h : s.Owned (τ + Multiset.replicate n (.guest i))) :
    (s.forgetOne i n).Owned τ := by
  refine h.edits (Edits.refl.forgetOne _ _) ?_ (h.live_of_le (Multiset.le_add_right _ _))
  have hcount : n ≤ ((τ + Multiset.replicate n (Ref.guest i)).map Ref.inode).count i := by
    simp [Ref.inode]
  simpa [Ref.inode] using h.balanced.forgetOne hcount

/-- The references a batch of FORGETs gives back. -/
def forgottenTokens (requests : List (Inode × Nat)) : Multiset Ref :=
  (forgotten requests).map .guest

theorem Owned.forgetMany {requests : List (Inode × Nat)}
    (h : s.Owned (τ + forgottenTokens requests)) : (s.forgetMany requests).Owned τ := by
  have hmap : (forgottenTokens requests).map Ref.inode = forgotten requests := by
    rw [forgottenTokens, Multiset.map_map]
    exact Multiset.map_id _
  refine h.edits (.forgetMany _ .refl) ?_ (h.live_of_le (Multiset.le_add_right _ _))
  have := h.balanced.forgetMany requests (by
    rw [Multiset.map_add, hmap]
    exact Multiset.le_add_left _ _)
  simpa [hmap] using this

theorem Owned.clearMigrationInfo (h : s.Owned τ) : s.clearMigrationInfo.Owned τ :=
  h.edits .clearMigrationInfo h.balanced.clearMigrationInfo h.live

end InodeStoreInner

end Virtiofsd
