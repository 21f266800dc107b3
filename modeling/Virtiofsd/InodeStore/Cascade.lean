/-
  # What `forget_one` removes

  `forget_one`, `remove` and `drop_unlocked` call each other, along parent references that a
  guest or a migration source may have tied into cycles.  `Releases` says what they are for,
  without fuel: an inode whose count reaches zero is removed, and the reference it held on its
  parent is released.  Here that relation is shown to have exactly ONE outcome in every store,
  the one `forget_one` computes, and the later modules follow the cascade by induction on it.

  `remove` takes the inode out of `data` BEFORE it locks the inode's `migration_info`, and keeps
  that mutex locked while the cascade goes on; an inode that is its own ancestor is no longer
  found, so no mutex is locked twice.
-/
import Virtiofsd.InodeStore
import Mathlib

namespace Virtiofsd

open List

/-- A cell that gave back `count` references. -/
def Cell.released (c : Cell) (count : Nat) : Cell := { c with refcount := c.refcount - count }

namespace InodeStoreInner

/-! ## 1. The cascade -/

/-- An id in `data` leads to an `InodeData` with that id, as `insert_new` enters it. -/
def Stored (s : InodeStoreInner) : Prop :=
  ∀ i a, s.data.lookup i = some a → ∃ c, s.cells[a]? = some c ∧ c.data.inode = i

/-- The store without the inode of the cell `c` at `a`, which gave back its last `n` references:
what `forget_one` leaves to the cascade. -/
def removed (s : InodeStoreInner) (a : Nat) (c : Cell) (n : Nat) : InodeStoreInner :=
  (s.setCell a (c.released n)).detach a (c.released n)

/-- **The cascade of `forget_one`, step by step**: `count` references to `i` are released.  An
inode whose count stays positive stays; one whose count reaches zero leaves the store, and the
one reference it holds on its parent is released in turn.  The last argument lists what was
removed, in order. -/
inductive Releases : InodeStoreInner → Inode → Nat → InodeStoreInner → List (Nat × Cell) → Prop
  | absent {s i count} (hl : s.data.lookup i = none) : Releases s i count s []
  | stays {s i count a c} (hl : s.data.lookup i = some a) (hc : s.cells[a]? = some c)
      (hpos : count < c.refcount) :
      Releases s i count (s.setCell a (c.released count)) []
  | leaves {s i count a c} (hl : s.data.lookup i = some a) (hc : s.cells[a]? = some c)
      (hzero : c.refcount ≤ count) (hparent : c.strongReference = none) :
      Releases s i count (s.removed a c count) [(a, c)]
  | cascades {s i count a c parent s' gone} (hl : s.data.lookup i = some a)
      (hc : s.cells[a]? = some c) (hzero : c.refcount ≤ count)
      (hparent : c.strongReference = some parent)
      (hrest : Releases (s.removed a c count) parent 1 s' gone) :
      Releases s i count s' ((a, c) :: gone)

variable {s s₁ s₂ : InodeStoreInner} {a b n count : Nat} {c c' : Cell} {i j : Inode}
  {gone gone₁ gone₂ : List (Nat × Cell)}

/-! ## 2. Removing one inode -/

theorem getElem?_setCell (h : s.cells[a]? = some c) :
    (s.setCell a c').cells[b]? = if b = a then some c' else s.cells[b]? := by
  have hlt : a < s.cells.length := by
    rw [List.getElem?_eq_some_iff] at h
    exact h.1
  simp only [setCell, List.getElem?_set]
  by_cases hb : a = b
  · simp [hb, hb ▸ hlt]
  · simp [hb, Ne.symm hb]

@[simp] theorem setCell_data : (s.setCell a c).data = s.data := rfl

theorem Stored.inode (h : s.Stored) (hl : s.data.lookup i = some a) (hc : s.cells[a]? = some c) :
    c.data.inode = i := by
  obtain ⟨c₀, hc₀, hi⟩ := h i a hl
  rw [Option.some.inj (hc.symm.trans hc₀), hi]

theorem lookup_insertNew : (s.insertNew c).2.data.lookup j =
    if j = c.data.inode then some s.cells.length else s.data.lookup j := by
  split
  · rename_i hj
    exact hj ▸ AList.lookup_insert _
  · rename_i hj
    exact AList.lookup_insert_ne hj

theorem cell?_insertNew (h : s.Stored) :
    (s.insertNew c).2.cell? j = if j = c.data.inode then some c else s.cell? j := by
  unfold cell?
  rw [lookup_insertNew]
  split
  · exact List.getElem?_concat_length
  · cases hj : s.data.lookup j with
    | none => rfl
    | some a =>
      obtain ⟨c₀, hc₀, -⟩ := h j a hj
      exact List.getElem?_append_left (List.getElem?_eq_some_iff.mp hc₀).1

section Removed

variable (h : s.Stored) (hl : s.data.lookup i = some a) (hc : s.cells[a]? = some c)
include h hl hc

theorem lookup_removed :
    (s.removed a c n).data.lookup j = if j = i then none else s.data.lookup j := by
  obtain rfl := h.inode hl hc
  show (s.data.erase c.data.inode).lookup j = _
  split
  · rename_i hj
    rw [hj, AList.lookup_erase]
  · rename_i hj
    rw [AList.lookup_erase_ne hj]

theorem of_lookup_removed (hj : (s.removed a c n).data.lookup j = some b) :
    j ≠ i ∧ s.data.lookup j = some b := by
  rw [lookup_removed h hl hc] at hj
  split at hj
  · cases hj
  · exact ⟨‹_›, hj⟩

omit h hl in
theorem getElem?_removed : (s.removed a c n).cells[b]? =
    if b = a then some { c.released n with migrationInfo := none } else s.cells[b]? := by
  have hset : (s.removed a c n).cells =
      (s.setCell a { c.released n with migrationInfo := none }).cells := set_set ..
  rw [hset, getElem?_setCell hc]

theorem cell?_removed : (s.removed a c n).cell? j = if j = i then none else s.cell? j := by
  unfold cell?
  rw [lookup_removed h hl hc]
  split
  · rfl
  · rename_i hji
    cases hj : s.data.lookup j with
    | none => rfl
    | some b =>
      -- no other inode is in the same cell
      have hb : b ≠ a := by
        rintro rfl
        exact hji ((h.inode hj hc).symm.trans (h.inode hl hc))
      rw [Option.bind_some, Option.bind_some, getElem?_removed hc, if_neg hb]

theorem Stored.removed : (s.removed a c n).Stored := by
  intro j b hj
  obtain ⟨hji, hjb⟩ := of_lookup_removed h hl hc hj
  obtain ⟨c₁, hc₁, rfl⟩ := h j b hjb
  have hcell := cell?_removed (n := n) (j := c₁.data.inode) h hl hc
  rw [if_neg hji, cell?, cell?, hj, hjb, Option.bind_some, Option.bind_some, hc₁] at hcell
  exact ⟨c₁, hcell, rfl⟩

theorem keys_length_removed : (s.removed a c n).data.keys.length < s.data.keys.length := by
  have hmem : i ∈ s.data.keys := AList.lookup_isSome.mp (by simp [hl])
  have hkeys : (s.removed a c n).data.keys = s.data.keys.erase i := by
    rw [← h.inode hl hc]
    exact AList.keys_erase _ _
  rw [hkeys, length_erase_of_mem hmem]
  have := length_pos_of_mem hmem
  omega

end Removed

/-! ## 3. The one outcome -/

/-- **`forget_one` ends**: every removal takes an inode out of the store, so the fuel is
enough for the whole cascade. -/
theorem Stored.releases : ∀ (fuel : Nat) {s : InodeStoreInner} (i : Inode) (count : Nat),
    s.Stored → s.data.keys.length < fuel →
      ∃ gone, Releases s i count (forgetLoop fuel s i count) gone
  | 0, _, _, _, _, hlt => absurd hlt (Nat.not_lt_zero _)
  | fuel + 1, s, i, count, h, hlt => by
    unfold forgetLoop
    cases hl : s.data.lookup i with
    | none => exact ⟨[], .absent hl⟩
    | some a =>
      obtain ⟨c, hc, -⟩ := h i a hl
      simp only [hc]
      by_cases h0 : c.refcount - count = 0
      · rw [if_pos h0]
        cases hparent : c.strongReference with
        | none => exact ⟨_, .leaves hl hc (Nat.sub_eq_zero_iff_le.mp h0) hparent⟩
        | some parent =>
          obtain ⟨gone, hrest⟩ := releases fuel parent 1 (h.removed hl hc)
            (Nat.lt_of_lt_of_le (keys_length_removed h hl hc) (Nat.le_of_lt_succ hlt))
          exact ⟨_, .cascades hl hc (Nat.sub_eq_zero_iff_le.mp h0) hparent hrest⟩
      · rw [if_neg h0]
        exact ⟨[], .stays hl hc (by omega)⟩

theorem Stored.forgetOne (h : s.Stored) (i : Inode) (count : Nat) :
    ∃ gone, Releases s i count (s.forgetOne i count) gone :=
  h.releases _ i count (Nat.lt_succ_self _)

/-- The relation leaves no choice: the store and what was looked up decide each step. -/
theorem Releases.unique (h₁ : Releases s i count s₁ gone₁) (h₂ : Releases s i count s₂ gone₂) :
    s₂ = s₁ ∧ gone₂ = gone₁ := by
  induction h₁ generalizing s₂ gone₂ with
  | absent hl => cases h₂ <;> simp_all
  | stays hl hc hpos => cases h₂ <;> simp_all <;> omega
  | leaves hl hc hzero hparent => cases h₂ <;> simp_all; omega
  | cascades hl hc hzero hparent hrest ih =>
    cases h₂ with
    | cascades hl₂ hc₂ _ hparent₂ hrest₂ =>
      obtain rfl := Option.some.inj (hl.symm.trans hl₂)
      obtain rfl := Option.some.inj (hc.symm.trans hc₂)
      obtain rfl := Option.some.inj (hparent.symm.trans hparent₂)
      obtain ⟨rfl, rfl⟩ := ih hrest₂
      exact ⟨rfl, rfl⟩
    | _ => simp_all <;> omega

/-- Nothing is entered along the way. -/
theorem Releases.lookup (hr : Releases s i count s₁ gone) (h : s.Stored)
    (hj : s₁.data.lookup j = some b) : s.data.lookup j = some b := by
  induction hr with
  | absent | stays => exact hj
  | leaves hl hc _ _ => exact (of_lookup_removed h hl hc hj).2
  | cascades hl hc _ _ _ ih => exact (of_lookup_removed h hl hc (ih (h.removed hl hc) hj)).2

theorem refcount_eq (hl : s.data.lookup i = some a) (hc : s.cells[a]? = some c) :
    s.refcount i = c.refcount := by
  rw [refcount, cell?, hl, Option.bind_some, hc]
  rfl

def tiedData (i : Inode) : InodeData := ⟨i, .file i, ⟨i, 0, 0⟩, 0⟩

/-- Two inodes that are each other's parent, one of them also known to the guest. -/
def tied : InodeStoreInner :=
  ((empty.insertNew ⟨tiedData 2, 2, some ⟨.path ⟨1, tiedData 3⟩ [97], none⟩⟩).2.insertNew
    ⟨tiedData 3, 1, some ⟨.path ⟨0, tiedData 2⟩ [98], none⟩⟩).2

theorem tied_stored : tied.Stored := by
  intro i a hl
  have hi : i ∈ [3, 2] := AList.lookup_isSome.mp (Option.isSome_of_eq_some hl)
  rcases hi with _ | ⟨_, _ | ⟨_, ⟨⟩⟩⟩
  · obtain rfl : 1 = a := Option.some.inj hl
    exact ⟨_, rfl, rfl⟩
  · obtain rfl : 0 = a := Option.some.inj hl
    exact ⟨_, rfl, rfl⟩

theorem forgetOne_absent (hl : s.data.lookup i = none) : s.forgetOne i n = s := by
  simp only [forgetOne, forgetLoop, hl]

theorem forgetOne_forgetOne (h : s.Stored) (m n : Nat) :
    (s.forgetOne i m).forgetOne i n = s.forgetOne i (m + n) := by
  obtain ⟨_, hr⟩ := h.forgetOne i m
  obtain ⟨_, hboth⟩ := h.forgetOne i (m + n)
  have hremoved : ∀ {a c}, c.refcount ≤ m → s.removed a c m = s.removed a c (m + n) := by
    intro a c hzero
    simp only [removed, Cell.released, Nat.sub_eq_zero_of_le hzero,
      Nat.sub_eq_zero_of_le (Nat.le_add_right_of_le hzero)]
  generalize s.forgetOne i m = s₁ at hr
  cases hr with
  | absent hl => rw [forgetOne_absent hl, ← (hboth.unique (.absent hl)).1]
  | stays hl hc _ =>
    simp only [forgetOne, forgetLoop, setCell_data, hl, hc, getElem?_setCell hc, if_true]
    simp only [setCell, Cell.released, set_set, Nat.sub_sub, Cell.strongReference]
  | leaves hl hc hzero hp =>
    rw [forgetOne_absent (by rw [lookup_removed h hl hc, if_pos rfl]), hremoved hzero]
    exact (hboth.unique (.leaves hl hc (Nat.le_add_right_of_le hzero) hp)).1
  | cascades hl hc hzero hp hrest =>
    rw [forgetOne_absent (Option.eq_none_iff_forall_ne_some.mpr fun b hb =>
      (of_lookup_removed h hl hc (hrest.lookup (h.removed hl hc) hb)).1 rfl)]
    exact (hboth.unique (.cascades hl hc (Nat.le_add_right_of_le hzero) hp
      (hremoved hzero ▸ hrest))).1

/-- **A BATCH_FORGET that names an inode several times is one FORGET of the sum**, with the same
cascade. -/
theorem forgetMany_eq_forgetOne (h : s.Stored) (i : Inode) : ∀ (n : Nat) (counts : List Nat),
    s.forgetMany ((n :: counts).map fun n => (i, n)) = s.forgetOne i (n :: counts).sum
  | n, [] => by simp [forgetMany]
  | m, n :: counts => by
    have hrest := forgetMany_eq_forgetOne h i (m + n) counts
    simp only [sum_cons, ← Nat.add_assoc] at hrest ⊢
    rw [← hrest]
    simp only [forgetMany, map_cons, foldl_cons, forgetOne_forgetOne h]

theorem forgetMany_tied : tied.forgetMany [(2, 1), (2, 1)] = tied.forgetOne 2 2 :=
  forgetMany_eq_forgetOne tied_stored 2 1 [1]

end InodeStoreInner

end Virtiofsd
