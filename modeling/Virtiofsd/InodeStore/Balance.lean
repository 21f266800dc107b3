/-
  # The refcount equation

  What the refcounts mean: at every moment the refcount of an inode in the store is the
  number of its owners, that is of the references held outside the store (by the guest, by
  the daemon's threads) and of the strong references held by migration infos; an inode
  without owners is not in the store.  This is `Balanced s own`, where the multiset `own`
  lists the references held outside.

  Each operation of the store keeps the equation, `own` changing by what the operation
  takes from its caller and gives to it.  The one that needs an argument is `forget_one`:
  removing an inode hands the reference in its migration info to the cascade, which owns it
  until it is dropped in turn (`Balanced.forgetOne`).
-/
import Virtiofsd.InodeStore.Cascade
import Mathlib.Algebra.Order.Group.Multiset
import Mathlib.Algebra.BigOperators.Group.List.Basic

namespace Virtiofsd

open Multiset

/-! ## 1. Counting references -/

/-- The reference an optional migration info holds. -/
def infoRefs (info : Option InodeMigrationInfo) : Multiset Inode :=
  match info.bind InodeMigrationInfo.strongReference with
  | some i => {i}
  | none => 0

variable {s' : InodeStoreInner} {r : InodeRef}

@[simp] theorem infoRefs_none : infoRefs none = 0 := rfl

theorem infoRefs_eq (c : Cell) :
    infoRefs c.migrationInfo = match c.strongReference with
      | some i => {i}
      | none => 0 := rfl

namespace InodeStoreInner

/-- All strong references held by migration infos. -/
def strongRefs (s : InodeStoreInner) : Multiset Inode :=
  (s.cells.map fun c => infoRefs c.migrationInfo).sum

variable {s : InodeStoreInner} {own own' : Multiset Inode} {a b : Nat} {c c' : Cell}
  {i j : Inode}

theorem sum_map_set {l : List Cell} (f : Cell → Multiset Inode) (h : l[a]? = some c) (c' : Cell) :
    ((l.set a c').map f).sum + f c = (l.map f).sum + f c' := by
  induction l generalizing a with
  | nil => simp at h
  | cons x l ih =>
    cases a with
    | zero =>
      obtain rfl : x = c := by simpa using h
      simp only [List.set_cons_zero, List.map_cons, List.sum_cons]
      ac_rfl
    | succ a =>
      have hl := ih (by simpa using h)
      simp only [List.set_cons_succ, List.map_cons, List.sum_cons, add_assoc, hl]

theorem strongRefs_setCell (h : s.cells[a]? = some c) (c' : Cell) :
    (s.setCell a c').strongRefs + infoRefs c.migrationInfo =
      s.strongRefs + infoRefs c'.migrationInfo :=
  sum_map_set (fun c => infoRefs c.migrationInfo) h c'

/-- A change of the refcount alone moves no strong reference. -/
theorem strongRefs_setCell_of_info (h : s.cells[a]? = some c)
    (hinfo : c'.migrationInfo = c.migrationInfo) : (s.setCell a c').strongRefs = s.strongRefs := by
  have := strongRefs_setCell h c'
  rw [hinfo] at this
  exact add_right_cancel this

/-! ## 2. The equation -/

/-- **The refcount equation**: `own` are the references held outside the store. -/
structure Balanced (s : InodeStoreInner) (own : Multiset Inode) : Prop where
  /-- The refcount of an inode in the store is the number of its owners, and not zero. -/
  cell : ∀ i a, s.data.lookup i = some a → ∃ c, s.cells[a]? = some c ∧ c.data.inode = i ∧
    0 < c.refcount ∧ c.refcount = (own + s.strongRefs).count i
  /-- An inode that is not in the store has no owner. -/
  gone : ∀ i, s.data.lookup i = none → (own + s.strongRefs).count i = 0
  /-- An `InodeData` outside the store can no longer be referenced. -/
  dead : ∀ a c, s.cells[a]? = some c → s.data.lookup c.data.inode ≠ some a → c.refcount = 0

theorem Balanced.empty : Balanced InodeStoreInner.empty 0 where
  cell i a h := by simp [InodeStoreInner.empty] at h
  gone i _ := by simp [InodeStoreInner.empty, strongRefs]
  dead a c h := by simp [InodeStoreInner.empty] at h

theorem Balanced.refcount_eq (h : s.Balanced own) (i : Inode) :
    s.refcount i = (own + s.strongRefs).count i := by
  unfold refcount cell?
  cases hl : s.data.lookup i with
  | none => simpa using (h.gone i hl).symm
  | some a =>
    obtain ⟨c, hc, -, -, hcount⟩ := h.cell i a hl
    simpa [hc] using hcount

/-- An owned inode is in the store. -/
theorem Balanced.lookup_of_mem (h : s.Balanced own) (hi : i ∈ own) :
    ∃ a, s.data.lookup i = some a := by
  cases hl : s.data.lookup i with
  | some a => exact ⟨a, rfl⟩
  | none =>
    have h0 := h.gone i hl
    have h1 := one_le_count_iff_mem.mpr hi
    rw [count_add] at h0
    omega

theorem Balanced.get_of_mem (h : s.Balanced own) (hi : i ∈ own) :
    ∃ r, s.get i = some r ∧ r.data.inode = i := by
  obtain ⟨a, ha⟩ := h.lookup_of_mem hi
  obtain ⟨c, hc, hci, -⟩ := h.cell i a ha
  exact ⟨⟨a, c.data⟩, by simp [get, ha, hc], hci⟩

/-- Writing a new refcount into the cell of an inode in the store. -/
theorem Balanced.setRefcount (h : s.Balanced own) (hl : s.data.lookup i = some a)
    (hc : s.cells[a]? = some c) {n : Nat} (hn : 0 < n)
    (hcount : n = (own' + s.strongRefs).count i)
    (hother : ∀ j, j ≠ i → own'.count j = own.count j) :
    (s.setCell a { c with refcount := n }).Balanced own' := by
  have hrefs : (s.setCell a { c with refcount := n }).strongRefs = s.strongRefs :=
    strongRefs_setCell_of_info hc rfl
  obtain ⟨c₀, hc₀, hci, -⟩ := h.cell i a hl
  obtain rfl : c₀ = c := by simpa [hc] using hc₀.symm
  refine ⟨?_, ?_, ?_⟩
  · intro j b hj
    rw [getElem?_setCell hc, hrefs]
    by_cases hb : b = a
    · subst hb
      obtain ⟨c₁, hc₁, hcj, -⟩ := h.cell j b hj
      obtain rfl : c₀ = c₁ := by simpa [hc] using hc₁
      obtain rfl : i = j := hci.symm.trans hcj
      exact ⟨_, if_pos rfl, hci, hn, hcount⟩
    · obtain ⟨c₁, hc₁, hcj, hpos, hcnt⟩ := h.cell j b hj
      have hji : j ≠ i := by
        rintro rfl
        exact hb (Option.some.inj (hj.symm.trans hl))
      refine ⟨c₁, by rw [if_neg hb, hc₁], hcj, hpos, ?_⟩
      rw [hcnt, count_add, count_add, hother j hji]
  · intro j hj
    have hji : j ≠ i := by
      rintro rfl
      simp [hl] at hj
    have := h.gone j hj
    rw [hrefs, count_add, hother j hji, ← count_add]
    exact this
  · intro b c₁ hb hnot
    rw [getElem?_setCell hc] at hb
    split at hb
    · rename_i hba
      cases hb
      have hlive : s.data.lookup c₀.data.inode = some b := by rw [hci, hl, hba]
      exact absurd hlive hnot
    · exact h.dead b c₁ hb hnot

/-! ## 3. `forget_one` -/

theorem strongRefs_removed (hc : s.cells[a]? = some c) (n : Nat) :
    (s.removed a c n).strongRefs + infoRefs c.migrationInfo = s.strongRefs := by
  have h := sum_map_set (fun c => infoRefs c.migrationInfo) hc
    { c.released n with migrationInfo := none }
  rw [infoRefs_none, add_zero, ← List.set_set (c.released n)] at h
  exact h

theorem Balanced.stored (h : s.Balanced own) : s.Stored := by
  intro i a hl
  obtain ⟨c, hc, hi, -⟩ := h.cell i a hl
  exact ⟨c, hc, hi⟩

theorem count_sub_replicate (own : Multiset Inode) (n : Nat) (i j : Inode) :
    (own - replicate n i).count j = own.count j - if j = i then n else 0 := by
  simp only [count_sub, count_replicate, eq_comm]

section Step

variable {n : Nat} (h : s.Balanced own) (hcount : n ≤ own.count i)
  (hl : s.data.lookup i = some a) (hc : s.cells[a]? = some c)
include h hcount hl hc

/-- `n` references of `i` are given back, and others are left. -/
theorem Balanced.release (hpos : n < c.refcount) :
    (s.setCell a (c.released n)).Balanced (own - replicate n i) := by
  obtain ⟨c₀, hc₀, -, -, hcnt⟩ := h.cell i a hl
  obtain rfl : c₀ = c := Option.some.inj (hc₀.symm.trans hc)
  rw [count_add] at hcnt
  refine h.setRefcount hl hc (Nat.sub_pos_of_lt hpos) ?_ fun j hj => ?_
  · rw [count_add, count_sub_replicate, if_pos rfl]
    omega
  · rw [count_sub_replicate, if_neg hj, Nat.sub_zero]

/-- The inode had no other owner and leaves the store: the reference in its migration info now
belongs to whoever drops it. -/
theorem Balanced.remove (hzero : c.refcount ≤ n) :
    (s.removed a c n).Balanced (own - replicate n i + infoRefs c.migrationInfo) := by
  -- of `i` nothing is left, and of the others the references are the same
  have hrefs : ∀ j, (own - replicate n i + infoRefs c.migrationInfo +
      (s.removed a c n).strongRefs).count j =
        if j = i then 0 else (own + s.strongRefs).count j := by
    intro j
    rw [add_assoc, add_comm (infoRefs _), strongRefs_removed hc, count_add, count_sub_replicate]
    split
    · rename_i hji
      obtain ⟨c₀, hc₀, -, -, hcnt⟩ := h.cell i a hl
      rw [Option.some.inj (hc₀.symm.trans hc), count_add] at hcnt
      rw [hji]
      omega
    · rw [Nat.sub_zero, count_add]
  refine ⟨fun j b hj => ?_, fun j hj => ?_, fun b c₁ hb hnot => ?_⟩
  · obtain ⟨hji, hold⟩ := of_lookup_removed h.stored hl hc hj
    obtain ⟨c₁, hc₁, hcj, hrest⟩ := h.cell j b hold
    have hba : b ≠ a := by
      rintro rfl
      exact hji ((h.stored.inode hold hc).symm.trans (h.stored.inode hl hc))
    rw [hrefs, if_neg hji, getElem?_removed hc, if_neg hba]
    exact ⟨c₁, hc₁, hcj, hrest⟩
  · rw [lookup_removed h.stored hl hc] at hj
    rw [hrefs]
    split at hj
    · exact if_pos ‹_›
    · rw [if_neg ‹_›]
      exact h.gone j hj
  · rw [getElem?_removed hc] at hb
    rw [lookup_removed h.stored hl hc] at hnot
    split at hb
    · cases hb
      exact Nat.sub_eq_zero_of_le hzero
    · rename_i hba
      refine h.dead b c₁ hb fun hlive => ?_
      split at hnot
      · rename_i hi
        rw [hi, hl] at hlive
        exact hba (Option.some.inj hlive).symm
      · exact hnot hlive

end Step

/-- **`forget_one` keeps the refcount equation**, cascade included, as long as the caller
gives back references it has. -/
theorem Balanced.forgetOne {count : Nat} (h : s.Balanced own) (hcount : count ≤ own.count i) :
    (s.forgetOne i count).Balanced (own - replicate count i) := by
  obtain ⟨gone, hr⟩ := h.stored.forgetOne i count
  generalize s.forgetOne i count = s' at hr ⊢
  induction hr generalizing own with
  | @absent s i count hl =>
    have h0 := h.gone i hl
    rw [count_add] at h0
    obtain rfl : count = 0 := by omega
    simpa using h
  | stays hl hc hpos => exact h.release hcount hl hc hpos
  | @leaves s i count a c hl hc hzero hparent =>
    have hleft := h.remove hcount hl hc hzero
    rw [infoRefs_eq, hparent] at hleft
    simpa using hleft
  | @cascades s i count a c parent s' gone hl hc hzero hparent hrest ih =>
    -- the cascade owns the parent's reference and gives it back
    have hleft := h.remove hcount hl hc hzero
    rw [infoRefs_eq, hparent] at hleft
    have hrec := ih hleft (by rw [count_add]; simp)
    simpa using hrec

theorem Balanced.foldl_forgetOne : ∀ (refs : List Inode) {s : InodeStoreInner}
    {own : Multiset Inode}, s.Balanced (own + (refs : Multiset Inode)) →
    (refs.foldl (fun s i => s.forgetOne i 1) s).Balanced own
  | [], _, _, h => by simpa using h
  | i :: refs, s, own, h => by
    have hmem : 1 ≤ (own + ((i :: refs : List Inode) : Multiset Inode)).count i := by
      rw [one_le_count_iff_mem]
      simp
    have hstep := h.forgetOne hmem
    have hown : own + ((i :: refs : List Inode) : Multiset Inode) - replicate 1 i =
        own + (refs : Multiset Inode) := by
      rw [← cons_coe, add_cons, replicate_one, sub_singleton,
        erase_cons_head]
    rw [hown] at hstep
    exact foldl_forgetOne refs hstep

/-- The references a batch of FORGETs gives back. -/
def forgotten (requests : List (Inode × Nat)) : Multiset Inode :=
  (requests.map fun r => Multiset.replicate r.2 r.1).sum

theorem Balanced.forgetMany : ∀ (requests : List (Inode × Nat)) {s : InodeStoreInner}
    {own : Multiset Inode}, s.Balanced own → forgotten requests ≤ own →
    (s.forgetMany requests).Balanced (own - forgotten requests)
  | [], _, _, h, _ => by simpa [forgotten, InodeStoreInner.forgetMany] using h
  | (i, n) :: requests, s, own, h, hle => by
    have hsplit : forgotten ((i, n) :: requests) =
        replicate n i + forgotten requests := by simp [forgotten]
    rw [hsplit] at hle ⊢
    have hhead : n ≤ own.count i :=
      le_count_iff_replicate_le.mpr (le_trans (le_add_right _ _) hle)
    have hstep := h.forgetOne hhead
    have hrest : forgotten requests ≤ own - replicate n i :=
      le_tsub_of_add_le_left hle
    have := forgetMany requests hstep hrest
    rwa [← tsub_add_eq_tsub_tsub] at this

/-! ## 4. The other operations -/

theorem deref_eq_some (h : s.deref r = some c) :
    s.cells[r.addr]? = some c ∧ c.data = r.data := by
  rw [deref, Option.filter_eq_some_iff] at h
  exact ⟨h.1, by simpa using h.2⟩

theorem of_incrementRefcount (hr : s.incrementRefcount r = (true, s')) :
    ∃ c, s.cells[r.addr]? = some c ∧ c.data = r.data ∧
      0 < c.refcount ∧ s' = s.setCell r.addr { c with refcount := c.refcount + 1 } := by
  unfold InodeStoreInner.incrementRefcount at hr
  cases hd : s.deref r with
  | none => simp [hd] at hr
  | some c =>
    obtain ⟨hc, hdata⟩ := deref_eq_some hd
    simp only [hd] at hr
    split at hr
    · rename_i hpos
      exact ⟨c, hc, hdata, hpos, (Prod.mk.inj hr).2.symm⟩
    · simp at hr

/-- A positive refcount is found in the store only. -/
theorem Balanced.lookup_of_incrementRefcount (h : s.Balanced own)
    (hr : s.incrementRefcount r = (true, s')) :
    s.data.lookup r.data.inode = some r.addr := by
  obtain ⟨c, hc, hdata, hpos, -⟩ := of_incrementRefcount hr
  by_contra hnot
  have := h.dead r.addr c hc (by rw [hdata]; exact hnot)
  omega

/-- Taking a strong reference: the caller owns one more. -/
theorem Balanced.incrementRefcount (h : s.Balanced own) (hr : s.incrementRefcount r = (true, s')) :
    s'.Balanced (own + {r.data.inode}) := by
  have hl := h.lookup_of_incrementRefcount hr
  obtain ⟨c, hc, -, -, rfl⟩ := of_incrementRefcount hr
  obtain ⟨c₀, hc₀, -, -, hcnt⟩ := h.cell _ _ hl
  obtain rfl : c = c₀ := by simpa [hc] using hc₀
  refine h.setRefcount hl hc (Nat.succ_pos _) ?_ ?_
  · rw [hcnt, count_add, count_add, count_add,
      count_singleton_self]
    omega
  · intro j hj
    rw [count_add, count_singleton, if_neg hj, add_zero]

theorem incrementRefcount_false (hr : s.incrementRefcount r = (false, s')) : s' = s := by
  unfold InodeStoreInner.incrementRefcount at hr
  split at hr
  · split at hr
    · simp at hr
    · exact (Prod.mk.inj hr).2.symm
  · exact (Prod.mk.inj hr).2.symm

/-- Whoever owns a reference to an inode in the store can take another one. -/
theorem Balanced.incrementRefcount_of_mem (h : s.Balanced own) (hr : s.get r.data.inode = some r) :
    (s.incrementRefcount r).1 = true := by
  unfold get at hr
  cases hl : s.data.lookup r.data.inode with
  | none => simp [hl] at hr
  | some a =>
    obtain ⟨c, hc, -, hpos, -⟩ := h.cell _ a hl
    obtain rfl : (⟨a, c.data⟩ : InodeRef) = r := by simpa [hl, hc] using hr
    have hd : s.deref ⟨a, c.data⟩ = some c := by simp [deref, hc]
    simp [InodeStoreInner.incrementRefcount, hd, hpos]

/-- Changing the migration info of a cell exchanges the references in it. -/
theorem Balanced.setInfo (h : s.Balanced own) (hc : s.cells[a]? = some c)
    (info : Option InodeMigrationInfo) (hown : own' + infoRefs info =
      own + infoRefs c.migrationInfo) :
    (s.setCell a { c with migrationInfo := info }).Balanced own' := by
  have hrefs : own' + (s.setCell a { c with migrationInfo := info }).strongRefs =
      own + s.strongRefs := by
    have h1 := strongRefs_setCell hc { c with migrationInfo := info }
    have h2 : own' + (s.setCell a { c with migrationInfo := info }).strongRefs +
        infoRefs c.migrationInfo = own + s.strongRefs + infoRefs c.migrationInfo := by
      calc own' + (s.setCell a { c with migrationInfo := info }).strongRefs +
            infoRefs c.migrationInfo
          = own' + (s.strongRefs + infoRefs info) := by rw [← h1, add_assoc]
        _ = own' + infoRefs info + s.strongRefs := by ac_rfl
        _ = own + s.strongRefs + infoRefs c.migrationInfo := by rw [hown]; ac_rfl
    exact add_right_cancel h2
  have hcells : ∀ b, (s.setCell a { c with migrationInfo := info }).cells[b]? =
      if b = a then some { c with migrationInfo := info } else s.cells[b]? :=
    fun b => getElem?_setCell hc
  refine ⟨?_, ?_, ?_⟩
  · intro j b hj
    obtain ⟨c₁, hc₁, hrest⟩ := h.cell j b hj
    rw [hcells, hrefs]
    by_cases hb : b = a
    · subst hb
      obtain rfl : c = c₁ := by simpa [hc] using hc₁
      exact ⟨_, if_pos rfl, hrest⟩
    · exact ⟨c₁, by rw [if_neg hb, hc₁], hrest⟩
  · intro j hj
    rw [hrefs]
    exact h.gone j hj
  · intro b c₁ hb hnot
    rw [hcells] at hb
    split at hb
    · rename_i hba
      cases hb
      exact h.dead b c (by rw [hba, hc]) hnot
    · exact h.dead b c₁ hb hnot

/-- Exchanging a migration info: the caller gives the references in the new one and gets
those in the old one. -/
theorem Balanced.exchangeInfo {info old : Option InodeMigrationInfo}
    (h : s.Balanced (own + infoRefs info)) (hr : s.exchangeInfo r info = (old, s')) :
    s'.Balanced (own + infoRefs old) := by
  unfold InodeStoreInner.exchangeInfo at hr
  cases hd : s.deref r with
  | none =>
    simp only [hd, Prod.mk.injEq] at hr
    obtain ⟨rfl, rfl⟩ := hr
    exact h
  | some c =>
    obtain ⟨hc, -⟩ := deref_eq_some hd
    simp only [hd, Prod.mk.injEq] at hr
    obtain ⟨rfl, rfl⟩ := hr
    refine h.setInfo hc info ?_
    ac_rfl

/-- Claiming an inode is taking a strong reference to it. -/
theorem incrementRefcount_of_claimInode {handle : Option FileHandle} {ids : InodeIds}
    (hr : s.claimInode handle ids = (.found r, s')) :
    s.incrementRefcount r = (true, s') := by
  unfold InodeStoreInner.claimInode at hr
  cases hf : s.findInode handle ids with
  | found r₀ =>
    rw [hf] at hr
    cases hi : s.incrementRefcount r₀ with
    | mk ok s₁ =>
      cases ok with
      | false => simp [hi] at hr
      | true =>
        obtain ⟨rfl, rfl⟩ : r₀ = r ∧ s₁ = s' := by simpa [hi] using hr
        exact hi
  | notFound | dangling => simp [hf] at hr

theorem claimInode_of_not_found {handle : Option FileHandle} {ids : InodeIds} {k : Claim}
    (hr : s.claimInode handle ids = (k, s')) (hk : ∀ r, k ≠ .found r) : s' = s := by
  unfold InodeStoreInner.claimInode at hr
  split at hr
  · split at hr
    · exact absurd (Prod.mk.inj hr).1.symm (hk _)
    · rename_i s₁ hi
      rw [← (Prod.mk.inj hr).2]
      exact incrementRefcount_false hi
  · exact (Prod.mk.inj hr).2.symm
  · exact (Prod.mk.inj hr).2.symm

/-- **What `get_or_insert` does.** -/
theorem getOrInsert_cases (s : InodeStoreInner) (d : InodeData) (info : Option InodeMigrationInfo) :
    (∃ r, s.getOrInsert d info = (.found r, (s.claimInode (indexHandle d) d.ids).2) ∧
      (s.claimInode (indexHandle d) d.ids).1 = .found r) ∨
    (s.getOrInsert d info = (.dangling, s) ∧
      (s.claimInode (indexHandle d) d.ids).1 = .dangling) ∨
    s.getOrInsert d info = (.doubleUse, s) ∨
    (s.getOrInsert d info = (.inserted (s.insertNew ⟨d, 1, info⟩).1, (s.insertNew ⟨d, 1, info⟩).2) ∧
      (s.claimInode (indexHandle d) d.ids).1 = .notFound ∧ s.contains d.inode = false) := by
  unfold InodeStoreInner.getOrInsert
  cases hclaim : s.claimInode (indexHandle d) d.ids with
  | mk k s₁ =>
    cases k with
    | found r => exact .inl ⟨r, rfl, rfl⟩
    | dangling =>
      obtain rfl := claimInode_of_not_found hclaim (by simp)
      exact .inr (.inl ⟨rfl, rfl⟩)
    | notFound =>
      obtain rfl := claimInode_of_not_found hclaim (by simp)
      refine .inr (.inr ?_)
      by_cases hused : s₁.contains d.inode = true
      · left
        simp [hused]
      · right
        simp [hused]

theorem strongRefs_insertNew :
    (s.insertNew c).2.strongRefs = s.strongRefs + infoRefs c.migrationInfo := by
  simp [InodeStoreInner.insertNew, strongRefs]

/-- Inserting a new inode with refcount `n`: its owners hold `n` references to it, and the
reference in its migration info moves into the store. -/
theorem Balanced.insertNew (h : s.Balanced (own + infoRefs c.migrationInfo))
    (hnew : s.contains c.data.inode = false) (hpos : 0 < c.refcount) :
    (s.insertNew c).2.Balanced (own + replicate c.refcount c.data.inode) := by
  have hl : s.data.lookup c.data.inode = none := by simpa [contains] using hnew
  have hrefs : own + replicate c.refcount c.data.inode + (s.insertNew c).2.strongRefs =
      own + infoRefs c.migrationInfo + s.strongRefs +
        replicate c.refcount c.data.inode := by
    rw [strongRefs_insertNew]
    ac_rfl
  have hzero := h.gone _ hl
  have hcells : (s.insertNew c).2.cells = s.cells ++ [c] := rfl
  have hold : ∀ (b : Nat) (c₁ : Cell), s.cells[b]? = some c₁ → b < s.cells.length := by
    intro b c₁ hb
    rw [List.getElem?_eq_some_iff] at hb
    exact hb.1
  refine ⟨?_, ?_, ?_⟩
  · intro j b hj
    rw [lookup_insertNew] at hj
    rw [hrefs, hcells, count_add, count_replicate]
    split at hj
    · rename_i hji
      cases hj
      refine ⟨c, by simp, hji.symm, hpos, ?_⟩
      rw [hji, if_pos rfl, hzero]
      omega
    · rename_i hji
      obtain ⟨c₁, hc₁, hcj, hpos₁, hcnt⟩ := h.cell j b hj
      have hlt := hold b c₁ hc₁
      refine ⟨c₁, by rw [List.getElem?_append_left hlt, hc₁], hcj, hpos₁, ?_⟩
      rw [if_neg (Ne.symm hji), add_zero]
      exact hcnt
  · intro j hj
    rw [lookup_insertNew] at hj
    split at hj
    · simp at hj
    · rename_i hji
      rw [hrefs, count_add, count_replicate, if_neg (Ne.symm hji), add_zero]
      exact h.gone j hj
  · intro b c₁ hb hnot
    rw [hcells] at hb
    rw [lookup_insertNew] at hnot
    by_cases hlt : b < s.cells.length
    · rw [List.getElem?_append_left hlt] at hb
      refine h.dead b c₁ hb ?_
      split at hnot
      · rename_i hji
        rw [hji, hl]
        simp
      · exact hnot
    · -- only the new cell itself is left, and that one is in the store
      have hbe : b = s.cells.length := by
        have : b < (s.cells ++ [c]).length := by
          rw [List.getElem?_eq_some_iff] at hb
          exact hb.1
        simp only [List.length_append, List.length_singleton] at this
        omega
      subst hbe
      obtain rfl : c = c₁ := by simpa using hb
      simp at hnot

/-- What `get_or_insert` gives to its caller, who gave it the references in `info`. -/
def insertionGives (info : Option InodeMigrationInfo) : Insertion → Multiset Inode
  | .found r => {r.data.inode} + infoRefs info
  | .inserted r => {r.data.inode}
  | .doubleUse => infoRefs info
  | .dangling => infoRefs info

theorem Balanced.getOrInsert {d : InodeData} {info : Option InodeMigrationInfo} {k : Insertion}
    (h : s.Balanced (own + infoRefs info)) (hr : s.getOrInsert d info = (k, s')) :
    s'.Balanced (own + insertionGives info k) := by
  rcases getOrInsert_cases s d info with ⟨r, heq, hclaim⟩ | ⟨heq, -⟩ | heq | ⟨heq, -, hnew⟩ <;>
    obtain ⟨rfl, rfl⟩ := Prod.mk.inj (heq.symm.trans hr)
  · have := h.incrementRefcount (incrementRefcount_of_claimInode (Prod.ext hclaim rfl))
    have hown : own + insertionGives info (.found r) = own + infoRefs info + {r.data.inode} := by
      simp only [insertionGives]
      ac_rfl
    rwa [hown]
  · exact h
  · exact h
  · have := Balanced.insertNew (c := ⟨d, 1, info⟩) h hnew Nat.one_pos
    simpa [insertionGives, InodeStoreInner.insertNew] using this

theorem Balanced.takeInfos : ∀ (is : List Inode) {s : InodeStoreInner} {own : Multiset Inode},
    s.Balanced own →
    (InodeStoreInner.takeInfos is s).2.Balanced
      (own + ((InodeStoreInner.takeInfos is s).1 : Multiset Inode))
  | [], _, _, h => by simpa [InodeStoreInner.takeInfos] using h
  | i :: is, s, own, h => by
    unfold InodeStoreInner.takeInfos
    split
    · exact takeInfos is h
    split
    · exact takeInfos is h
    split
    · exact takeInfos is h
    · rename_i a hl _ c hc
      have hinfo : (c.strongReference.toList : Multiset Inode) = infoRefs c.migrationInfo := by
        rw [infoRefs_eq]
        cases c.strongReference <;> rfl
      -- the references that are taken out belong to the caller from here on
      have hset : (s.setCell a { c with migrationInfo := none }).Balanced
          (own + infoRefs c.migrationInfo) := h.setInfo hc none (by simp)
      have hrec := takeInfos is hset
      simp only [← coe_add, hinfo]
      rwa [add_assoc] at hrec

/-- Clearing the migration infos changes hands inside the store only. -/
theorem Balanced.clearMigrationInfo (h : s.Balanced own) : s.clearMigrationInfo.Balanced own :=
  Balanced.foldl_forgetOne _ (Balanced.takeInfos s.inodes h)

end InodeStoreInner

end Virtiofsd
