/-
  # The dentry index is a bidirectional map (`passthrough/dentry_index.rs`)

  The index keeps `forward`, from a parent and a name to an inode, and `reverse`, from an inode
  to all its names.  Whoever looks at one of the maps relies on the other: a host event is
  resolved by `forward`, and a bulk invalidation goes through the keys of `reverse`.

  `Consistent` says that the two maps are one relation.  Every operation keeps it, and what an
  operation does to the relation is stated on `view`, the map from names to inodes.
-/
import Virtiofsd.Lib.UnixPath
import Virtiofsd.Passthrough.Actions

namespace Virtiofsd

open Lib Function List

namespace DentryIndex

variable {d : DentryIndex} {key k : Inode × Name} {child c : Inode}

/-! ## 1. Reading the index -/

/-- `DentryIndex::get`. -/
def get (d : DentryIndex) (parent : Inode) (nm : Name) : Option Inode :=
  d.forward.lookup (parent, nm)

/-- The walk of `resolve_path`: the deepest inode that is known, and what is left. -/
def resolveSegments (d : DentryIndex) : Inode → List Name → Inode × List Name
  | current, [] => (current, [])
  | current, segment :: rest =>
    match d.get current segment with
    | some child => d.resolveSegments child rest
    | none => (current, segment :: rest)

/-- `DentryIndex::resolve_path`: only names count. -/
def resolvePath (d : DentryIndex) (root : Inode) (path : List UnixPath.Component) :
    Inode × List Name :=
  d.resolveSegments root (UnixPath.names path)

/-- `DentryIndex::names_for`. -/
def namesFor (d : DentryIndex) (inode : Inode) : List (Inode × Name) :=
  (d.reverse.lookup inode).getD []

/-- `DentryIndex::all_inodes`. -/
def allInodes (d : DentryIndex) : List Inode := d.reverse.keys.insertionSort (· ≤ ·)

/-- One operation. -/
def apply (d : DentryIndex) : DentryOp → DentryIndex
  | .insert parent nm child => d.insert parent nm child
  | .remove parent nm => d.remove parent nm
  | .rename oldParent oldName newParent newName => d.rename oldParent oldName newParent newName
  | .forget inode => d.forgetInode inode

/-- **The names, and the inodes they lead to.** -/
def view (d : DentryIndex) (key : Inode × Name) : Option Inode := d.forward.lookup key

/-- **The two maps are one relation**, and no inode is kept without names. -/
structure Consistent (d : DentryIndex) : Prop where
  mem : ∀ k c, k ∈ d.namesFor c ↔ d.view k = some c
  nonempty : ∀ c, d.reverse.lookup c ≠ some []
  nodup : ∀ c, (d.namesFor c).Nodup

/-! ## 2. Names of one inode -/

theorem view_unname (d : DentryIndex) (child : Inode) (key : Inode × Name) :
    (d.unname child key).view = d.view := by
  unfold unname
  split <;> rfl

theorem view_name (d : DentryIndex) (child : Inode) (key : Inode × Name) :
    (d.name child key).view = d.view := rfl

theorem namesFor_unname (d : DentryIndex) (child : Inode) (key : Inode × Name) (c : Inode) :
    (d.unname child key).namesFor c =
      if c = child then (d.namesFor child).erase key else d.namesFor c := by
  unfold unname namesFor
  cases hnames : d.reverse.lookup child with
  | none =>
    dsimp only
    by_cases h : c = child
    · rw [if_pos h, h, hnames]
      rfl
    · rw [if_neg h]
  | some names =>
    dsimp only
    by_cases h : c = child
    · rw [if_pos h, h]
      by_cases hrest : (names.erase key).isEmpty = true
      · rw [if_pos hrest, AList.lookup_erase]
        exact (List.isEmpty_iff.mp hrest).symm
      · rw [if_neg hrest, AList.lookup_insert]
        rfl
    · rw [if_neg h]
      by_cases hrest : (names.erase key).isEmpty = true
      · rw [if_pos hrest, AList.lookup_erase_ne h]
      · rw [if_neg hrest, AList.lookup_insert_ne h]

theorem namesFor_name (d : DentryIndex) (child : Inode) (key : Inode × Name) (c : Inode) :
    (d.name child key).namesFor c =
      if c = child then
        if key ∈ d.namesFor child then d.namesFor child else key :: d.namesFor child
      else d.namesFor c := by
  unfold name namesFor
  dsimp only
  by_cases h : c = child
  · rw [if_pos h, h, AList.lookup_insert]
    rfl
  · rw [if_neg h, AList.lookup_insert_ne h]

theorem mem_unname (hnodup : ∀ c, (d.namesFor c).Nodup) :
    k ∈ (d.unname child key).namesFor c ↔ k ∈ d.namesFor c ∧ ¬ (c = child ∧ k = key) := by
  rw [namesFor_unname]
  by_cases h : c = child
  · rw [if_pos h, (hnodup child).mem_erase_iff, h]
    tauto
  · rw [if_neg h]
    tauto

theorem mem_name : k ∈ (d.name child key).namesFor c ↔
    k ∈ d.namesFor c ∨ (c = child ∧ k = key) := by
  rw [namesFor_name]
  by_cases h : c = child
  · rw [if_pos h, h]
    by_cases hmem : key ∈ d.namesFor child
    · rw [if_pos hmem]
      constructor
      · exact .inl
      · rintro (hk | ⟨-, rfl⟩)
        · exact hk
        · exact hmem
    · rw [if_neg hmem, mem_cons]
      tauto
  · rw [if_neg h]
    tauto

/-! ## 3. What every operation keeps -/

/-- What both maps need of `reverse` alone. -/
structure ReverseOk (d : DentryIndex) : Prop where
  nonempty : ∀ c, d.reverse.lookup c ≠ some []
  nodup : ∀ c, (d.namesFor c).Nodup

theorem ReverseOk.unname (h : d.ReverseOk) (child : Inode) (key : Inode × Name) :
    (d.unname child key).ReverseOk := by
  refine ⟨fun c hc => ?_, fun c => ?_⟩
  · unfold DentryIndex.unname at hc
    split at hc
    · exact h.nonempty c hc
    · rename_i names hnames
      dsimp only at hc
      split at hc
      · rename_i hrest
        by_cases hcc : c = child
        · rw [hcc, AList.lookup_erase] at hc
          cases hc
        · rw [AList.lookup_erase_ne hcc] at hc
          exact h.nonempty c hc
      · rename_i hrest
        by_cases hcc : c = child
        · rw [hcc, AList.lookup_insert] at hc
          exact hrest (List.isEmpty_iff.mpr (Option.some.inj hc))
        · rw [AList.lookup_insert_ne hcc] at hc
          exact h.nonempty c hc
  · rw [namesFor_unname]
    split
    · exact (h.nodup child).erase key
    · exact h.nodup c

theorem ReverseOk.name (h : d.ReverseOk) (child : Inode) (key : Inode × Name) :
    (d.name child key).ReverseOk := by
  refine ⟨fun c hc => ?_, fun c => ?_⟩
  · unfold DentryIndex.name at hc
    dsimp only at hc
    by_cases hcc : c = child
    · rw [hcc, AList.lookup_insert] at hc
      have hnames := Option.some.inj hc
      split at hnames
      · rename_i hmem
        rw [hnames] at hmem
        exact not_mem_nil hmem
      · cases hnames
    · rw [AList.lookup_insert_ne hcc] at hc
      exact h.nonempty c hc
  · rw [namesFor_name]
    split
    · split
      · exact h.nodup child
      · rename_i hnot
        exact nodup_cons.mpr ⟨hnot, h.nodup child⟩
    · exact h.nodup c

theorem Consistent.empty : empty.Consistent where
  mem k c := by simp [namesFor, view, DentryIndex.empty]
  nonempty c := by simp [DentryIndex.empty]
  nodup c := by simp [namesFor, DentryIndex.empty]

theorem view_forwardInsert (d : DentryIndex) (key : Inode × Name) (child : Inode) :
    view { d with forward := d.forward.insert key child } =
      update d.view key (some child) := by
  funext k
  by_cases hk : k = key
  · rw [hk, update_self, view, AList.lookup_insert]
  · rw [update_of_ne hk, view, AList.lookup_insert_ne hk]
    rfl

theorem view_forwardErase (d : DentryIndex) (key : Inode × Name) :
    view { d with forward := d.forward.erase key } = update d.view key none := by
  funext k
  by_cases hk : k = key
  · rw [hk, update_self, view, AList.lookup_erase]
  · rw [update_of_ne hk, view, AList.lookup_erase_ne hk]
    rfl

/-- **`insert` binds the name**, whatever it was bound to. -/
theorem view_insert (d : DentryIndex) (parent : Inode) (nm : Name) (child : Inode) :
    (d.insert parent nm child).view = update d.view (parent, nm) (some child) := by
  unfold DentryIndex.insert
  dsimp only
  rw [view_name]
  split
  · split
    · rw [view_unname, view_forwardInsert]
    · rw [view_forwardInsert]
  · rw [view_forwardInsert]

theorem view_remove (d : DentryIndex) (parent : Inode) (nm : Name) :
    (d.remove parent nm).view = update d.view (parent, nm) none := by
  unfold DentryIndex.remove
  dsimp only
  split
  · rw [view_unname, view_forwardErase]
  · rename_i h
    exact (update_eq_self_iff.mpr h.symm).symm

/-- A name that only `child` may still have on record, bound to `child`. -/
theorem Consistent.of_bound {e : DentryIndex} (h : d.Consistent) (hok : e.ReverseOk)
    (hview : e.view = update d.view key (some child))
    (hmem : ∀ k c, k ∈ e.namesFor c ↔ k ∈ d.namesFor c ∧ (k = key → c = child)) :
    (e.name child key).Consistent := by
  refine ⟨fun k c => ?_, (hok.name child key).nonempty, (hok.name child key).nodup⟩
  rw [mem_name, hmem, view_name, hview, h.mem]
  by_cases hk : k = key
  · rw [hk, update_self, Option.some.injEq]
    tauto
  · rw [update_of_ne hk]
    tauto

theorem Consistent.insert (h : d.Consistent) (parent : Inode) (nm : Name) (child : Inode) :
    (d.insert parent nm child).Consistent := by
  have hok : ReverseOk { d with forward := d.forward.insert (parent, nm) child } :=
    ⟨h.nonempty, h.nodup⟩
  have hview := view_forwardInsert d (parent, nm) child
  -- The inodes that have the name on record.
  have hkey : ∀ c, (parent, nm) ∈ d.namesFor c ↔ d.forward.lookup (parent, nm) = some c :=
    fun c => h.mem _ c
  unfold DentryIndex.insert
  dsimp only
  cases hprev : d.forward.lookup (parent, nm) with
  | none =>
    refine h.of_bound hok hview fun k c => (and_iff_left_of_imp ?_).symm
    rintro hk rfl
    cases hprev.symm.trans ((hkey c).mp hk)
  | some prev =>
    dsimp only
    split
    · rename_i hne
      refine h.of_bound (hok.unname prev _) ((view_unname _ _ _).trans hview) fun k c => ?_
      rw [mem_unname hok.nodup]
      refine and_congr_right fun hk => ⟨?_, ?_⟩
      · rintro hnot rfl
        have hc := Option.some.inj (hprev.symm.trans ((hkey c).mp hk))
        exact absurd ⟨hc.symm, rfl⟩ hnot
      · rintro himp ⟨rfl, rfl⟩
        exact hne (himp rfl)
    · rename_i heq
      refine h.of_bound hok hview fun k c => (and_iff_left_of_imp ?_).symm
      rintro hk rfl
      have hc := Option.some.inj (hprev.symm.trans ((hkey c).mp hk))
      exact hc.symm.trans (not_not.mp heq)

theorem Consistent.remove (h : d.Consistent) (parent : Inode) (nm : Name) :
    (d.remove parent nm).Consistent := by
  have hview := view_remove d parent nm
  unfold DentryIndex.remove at hview ⊢
  dsimp only at hview ⊢
  cases hprev : d.forward.lookup (parent, nm) with
  | none => exact h
  | some prev =>
    rw [hprev] at hview
    dsimp only at hview ⊢
    have hok : ReverseOk { d with forward := d.forward.erase (parent, nm) } :=
      ⟨h.nonempty, h.nodup⟩
    refine ⟨fun k c => ?_, (hok.unname prev _).nonempty, (hok.unname prev _).nodup⟩
    rw [mem_unname hok.nodup, hview]
    show k ∈ d.namesFor c ∧ _ ↔ _
    rw [h.mem]
    by_cases hk : k = (parent, nm)
    · rw [hk, update_self, view, hprev, Option.some.injEq]
      simp only [reduceCtorEq, iff_false, and_true, not_and, not_not]
      exact fun h => h.symm
    · rw [update_of_ne hk]
      tauto

/-- What `rename` does to the names, as far as `view` shows them. -/
def movedView (f : Inode × Name → Option Inode) (old new : Inode × Name) :
    Inode × Name → Option Inode :=
  Function.update (Function.update f old none) new (if old = new then none else f old)

/-- **`rename` moves the inode of the old name**, if it has one, to the new name; a name that
is renamed to itself is unbound. -/
theorem view_rename (d : DentryIndex) (oldParent : Inode) (oldName : Name) (newParent : Inode)
    (newName : Name) :
    (d.rename oldParent oldName newParent newName).view =
      movedView d.view (oldParent, oldName) (newParent, newName) := by
  have hremoved := view_remove d newParent newName
  set old := (oldParent, oldName)
  set new := (newParent, newName)
  set d₁ := d.remove newParent newName
  have hold : d₁.view old = if old = new then none else d.view old := by
    rw [hremoved]
    by_cases h : old = new
    · rw [if_pos h, h, update_self]
    · rw [if_neg h, update_of_ne h]
  unfold DentryIndex.rename movedView
  rw [← hold]
  dsimp only
  cases hchild : d₁.forward.lookup old with
  | none =>
    have hview : d₁.view old = none := hchild
    show d₁.view = _
    rw [hview, hremoved]
    funext k
    by_cases hk : k = new
    · rw [hk, update_self, update_self]
    · rw [update_of_ne hk, update_of_ne hk]
      by_cases hk' : k = old
      · rw [hk', update_self]
        rw [hremoved, update_of_ne (hk' ▸ hk)] at hview
        exact hview
      · rw [update_of_ne hk']
  | some child =>
    have hview : d₁.view old = some child := hchild
    rw [hview]
    have hmoved : view { d₁ with forward := (d₁.forward.erase old).insert new child } =
        update (update d.view old none) new (some child) := by
      refine (view_forwardInsert { d₁ with forward := d₁.forward.erase old } new child).trans ?_
      rw [view_forwardErase, hremoved]
      funext k
      by_cases hk : k = new
      · rw [hk, update_self, update_self]
      · rw [update_of_ne hk, update_of_ne hk]
        by_cases hk' : k = old
        · rw [hk', update_self, update_self]
        · rw [update_of_ne hk', update_of_ne hk', update_of_ne hk]
    dsimp only
    split <;> exact hmoved

/-- An inode that some name leads to has its names on record. -/
theorem Consistent.lookup_reverse (h : d.Consistent) (hk : d.view k = some c) :
    d.reverse.lookup c = some (d.namesFor c) := by
  have hmem := (h.mem k c).mpr hk
  unfold namesFor at hmem ⊢
  cases hnames : d.reverse.lookup c with
  | none =>
    rw [hnames] at hmem
    exact absurd hmem not_mem_nil
  | some names => rfl

theorem Consistent.rename (h : d.Consistent) (oldParent : Inode) (oldName : Name)
    (newParent : Inode) (newName : Name) :
    (d.rename oldParent oldName newParent newName).Consistent := by
  have h₁ := h.remove newParent newName
  have hnew : (d.remove newParent newName).view (newParent, newName) = none := by
    rw [view_remove, update_self]
  unfold DentryIndex.rename
  dsimp only
  set old := (oldParent, oldName)
  set new := (newParent, newName)
  set d₁ := d.remove newParent newName
  cases hchild : d₁.forward.lookup old with
  | none => exact h₁
  | some child =>
    dsimp only
    rw [h₁.lookup_reverse hchild]
    dsimp only
    set rest := (d₁.namesFor child).erase old with hrest
    have hfree : ∀ c, new ∉ d₁.namesFor c := by
      intro c hc
      rw [h₁.mem, hnew] at hc
      cases hc
    have hnotin : new ∉ rest := fun hc => hfree child (mem_of_mem_erase hc)
    rw [if_neg hnotin]
    have hnames : ∀ c, namesFor ⟨(d₁.forward.erase old).insert new child,
        d₁.reverse.insert child (new :: rest)⟩ c =
          if c = child then new :: rest else d₁.namesFor c := by
      intro c
      unfold namesFor
      by_cases hc : c = child
      · rw [if_pos hc, hc, AList.lookup_insert]
        rfl
      · rw [if_neg hc, AList.lookup_insert_ne hc]
    have hview : view ⟨(d₁.forward.erase old).insert new child,
        d₁.reverse.insert child (new :: rest)⟩ =
          update (update d₁.view old none) new (some child) := by
      show view { d₁ with forward := (d₁.forward.erase old).insert new child } = _
      rw [view_forwardInsert { d₁ with forward := d₁.forward.erase old } new child,
        view_forwardErase]
    have hold : d₁.view old = some child := hchild
    refine ⟨fun k c => ?_, fun c hc => ?_, fun c => ?_⟩
    · rw [hnames, hview]
      by_cases hk : k = new
      · rw [hk, update_self, Option.some.injEq]
        by_cases hc : c = child
        · simp [hc]
        · rw [if_neg hc]
          exact ⟨fun hmem => absurd hmem (hfree c), fun heq => absurd heq.symm hc⟩
      · rw [update_of_ne hk]
        by_cases hk' : k = old
        · rw [hk', update_self]
          refine ⟨fun hmem => ?_, nofun⟩
          split at hmem
          · rcases mem_cons.mp hmem with hmem | hmem
            · exact absurd (hk'.trans hmem) hk
            · exact absurd hmem (h₁.nodup child).not_mem_erase
          · rename_i hc
            rw [h₁.mem, hold] at hmem
            exact absurd (Option.some.inj hmem).symm hc
        · rw [update_of_ne hk', ← h₁.mem]
          split
          · rename_i hc
            rw [mem_cons, (h₁.nodup child).mem_erase_iff, hc]
            tauto
          · exact Iff.rfl
    · by_cases hcc : c = child
      · rw [hcc, AList.lookup_insert] at hc
        cases hc
      · rw [AList.lookup_insert_ne hcc] at hc
        exact h₁.nonempty c hc
    · rw [hnames]
      split
      · exact nodup_cons.mpr ⟨hnotin, (h₁.nodup child).erase old⟩
      · exact h₁.nodup c

theorem lookup_foldl_erase : ∀ (names : List (Inode × Name))
    (f : AList fun _ : Inode × Name => Inode) (k : Inode × Name),
    (names.foldl (fun f key => f.erase key) f).lookup k = if k ∈ names then none else f.lookup k
  | [], f, k => by simp
  | key :: names, f, k => by
    rw [foldl_cons, lookup_foldl_erase names]
    by_cases hk : k = key
    · rw [hk, AList.lookup_erase, ite_self, if_pos mem_cons_self]
    · by_cases hmem : k ∈ names
      · simp [hmem]
      · rw [if_neg hmem, if_neg (by simp [hk, hmem]), AList.lookup_erase_ne hk]

/-- **`forget_inode` unbinds all names of the inode.** -/
theorem Consistent.view_forgetInode (h : d.Consistent) (inode : Inode) :
    (d.forgetInode inode).view = fun k => if d.view k = some inode then none else d.view k := by
  funext k
  unfold DentryIndex.forgetInode
  cases hnames : d.reverse.lookup inode with
  | none =>
    have hk : d.view k ≠ some inode := fun hk => by
      rw [h.lookup_reverse hk] at hnames
      cases hnames
    rw [if_neg hk]
  | some names =>
    have heq : d.namesFor inode = names := by rw [namesFor, hnames]; rfl
    show (names.foldl (fun f key => f.erase key) d.forward).lookup k = _
    rw [lookup_foldl_erase, ← heq]
    by_cases hk : k ∈ d.namesFor inode
    · rw [if_pos hk, if_pos ((h.mem k inode).mp hk)]
    · rw [if_neg hk, if_neg fun hv => hk ((h.mem k inode).mpr hv)]
      rfl

theorem Consistent.forgetInode (h : d.Consistent) (inode : Inode) :
    (d.forgetInode inode).Consistent := by
  have hview := h.view_forgetInode inode
  have hnames : ∀ c, (d.forgetInode inode).namesFor c = if c = inode then [] else d.namesFor c := by
    intro c
    unfold DentryIndex.forgetInode namesFor
    cases hnames : d.reverse.lookup inode with
    | none =>
      by_cases hc : c = inode
      · rw [if_pos hc, hc]
        dsimp only
        rw [hnames]
        rfl
      · rw [if_neg hc]
    | some names =>
      by_cases hc : c = inode
      · rw [if_pos hc, hc]
        dsimp only
        rw [AList.lookup_erase]
        rfl
      · rw [if_neg hc]
        dsimp only
        rw [AList.lookup_erase_ne hc]
  refine ⟨fun k c => ?_, fun c hc => ?_, fun c => ?_⟩
  · rw [hnames, hview]
    dsimp only
    by_cases hc : c = inode
    · rw [if_pos hc, hc]
      split
      · simp
      · rename_i hne
        simp [hne]
    · rw [if_neg hc, h.mem]
      split
      · rename_i heq
        rw [heq]
        simp [Ne.symm hc]
      · rfl
  · unfold DentryIndex.forgetInode at hc
    split at hc
    · exact h.nonempty c hc
    · by_cases hcc : c = inode
      · rw [hcc, AList.lookup_erase] at hc
        cases hc
      · rw [AList.lookup_erase_ne hcc] at hc
        exact h.nonempty c hc
  · rw [hnames]
    split
    · exact nodup_nil
    · exact h.nodup c

/-! ## 4. Runs -/

/-- One operation keeps the index consistent. -/
theorem Consistent.apply (h : d.Consistent) (op : DentryOp) : (d.apply op).Consistent := by
  cases op with
  | insert parent nm child => exact h.insert parent nm child
  | remove parent nm => exact h.remove parent nm
  | rename oldParent oldName newParent newName => exact h.rename oldParent oldName newParent newName
  | forget inode => exact h.forgetInode inode

theorem Consistent.foldl (h : d.Consistent) (ops : List DentryOp) :
    (ops.foldl DentryIndex.apply d).Consistent := by
  induction ops generalizing d with
  | nil => exact h
  | cons op ops ih => exact ih (h.apply op)

/-- The inodes on record are those that some name leads to. -/
theorem Consistent.mem_allInodes (h : d.Consistent) :
    c ∈ d.allInodes ↔ ∃ parent nm, d.get parent nm = some c := by
  have hkeys : c ∈ d.allInodes ↔ c ∈ d.reverse := by
    unfold allInodes
    rw [mem_insertionSort]
    exact AList.mem_keys.symm
  rw [hkeys, ← AList.lookup_isSome]
  constructor
  · intro hsome
    obtain ⟨names, hnames⟩ := Option.isSome_iff_exists.mp hsome
    cases names with
    | nil => exact absurd hnames (h.nonempty c)
    | cons k names =>
      have hk : k ∈ d.namesFor c := by
        unfold namesFor
        rw [hnames]
        exact mem_cons_self
      exact ⟨k.1, k.2, (h.mem k c).mp hk⟩
  · rintro ⟨parent, nm, hk⟩
    rw [h.lookup_reverse hk]
    rfl

/-- **The dentry index is one relation, read both ways**, after every sequence of operations. -/
theorem index_bidirectional (ops : List DentryOp) :
    let d := ops.foldl apply empty
    (∀ k c, d.forward.lookup k = some c ↔ ∃ names, d.reverse.lookup c = some names ∧ k ∈ names) ∧
      (∀ c names, d.reverse.lookup c = some names → names ≠ []) ∧
      (∀ c, (d.namesFor c).Nodup ∧
        ∀ parent nm, (parent, nm) ∈ d.namesFor c ↔ d.get parent nm = some c) ∧
      ∀ c, c ∈ d.allInodes ↔ ∃ parent nm, d.get parent nm = some c := by
  intro d
  have h : d.Consistent := Consistent.empty.foldl ops
  refine ⟨fun k c => ⟨fun hk => ?_, ?_⟩, ?_, fun c => ⟨h.nodup c, fun parent nm => h.mem _ c⟩,
    fun c => h.mem_allInodes⟩
  · exact ⟨_, h.lookup_reverse hk, (h.mem k c).mpr hk⟩
  · rintro ⟨names, hnames, hk⟩
    refine (h.mem k c).mp ?_
    unfold namesFor
    rw [hnames]
    exact hk
  · rintro c names hnames rfl
    exact h.nonempty c hnames

/-! ## 5. Paths -/

/-- **The inode a whole path leads to.** -/
def walk (d : DentryIndex) : Inode → List Name → Option Inode
  | current, [] => some current
  | current, segment :: rest => (d.get current segment).bind fun child => d.walk child rest

variable {segments : List Name}

/-- A path resolves if nothing of it is left. -/
theorem resolveSegments_eq_nil {root i : Inode} :
    d.resolveSegments root segments = (i, []) ↔ d.walk root segments = some i := by
  induction segments generalizing root with
  | nil => simp [resolveSegments, walk]
  | cons segment rest ih =>
    rw [resolveSegments, walk]
    cases d.get root segment with
    | none => simp
    | some child => exact ih

/-- What is left of a path that does not resolve. -/
theorem resolveSegments_of_walk_none {root : Inode} (h : d.walk root segments = none) :
    (d.resolveSegments root segments).2 ≠ [] := by
  intro hnil
  have heq : d.resolveSegments root segments = ((d.resolveSegments root segments).1, []) :=
    Prod.ext rfl hnil
  cases h.symm.trans (resolveSegments_eq_nil.mp heq)

/-- `resolve_path` finds the inode of the whole path, or leaves some of it. -/
theorem resolvePath_cases (d : DentryIndex) (root : Inode) (path : List UnixPath.Component) :
    (∃ i, d.walk root (UnixPath.names path) = some i ∧ d.resolvePath root path = (i, [])) ∨
      d.walk root (UnixPath.names path) = none ∧ (d.resolvePath root path).2 ≠ [] := by
  cases hwalk : d.walk root (UnixPath.names path) with
  | none => exact .inr ⟨rfl, resolveSegments_of_walk_none hwalk⟩
  | some i => exact .inl ⟨i, rfl, resolveSegments_eq_nil.mpr hwalk⟩

/-- A path leads to where it starts, or to an inode on record. -/
theorem Consistent.walk_mem (h : d.Consistent) {root i : Inode}
    (hi : d.walk root segments = some i) : i = root ∨ i ∈ d.allInodes := by
  induction segments generalizing root with
  | nil => exact .inl (Option.some.inj hi).symm
  | cons segment rest ih =>
    rw [walk] at hi
    obtain ⟨child, hchild, hi⟩ := Option.bind_eq_some_iff.mp hi
    rcases ih hi with rfl | hmem
    · exact .inr (h.mem_allInodes.mpr ⟨_, _, hchild⟩)
    · exact .inr hmem

/-- **Paths below a directory move with it**: after `rename` they lead from the new name to
where they led from the old one, or as far.  As for `rename(2)`, neither parent is the
directory or below it. -/
theorem resolveSegments_rename {old new : Inode × Name} (hne : old ≠ new)
    (hc : d.view old = some c)
    (hbelow : ∀ segments, (d.resolveSegments c segments).1 ∉ [old.1, new.1])
    (segments : List Name) :
    (d.rename old.1 old.2 new.1 new.2).resolveSegments new.1 (new.2 :: segments) =
      d.resolveSegments old.1 (old.2 :: segments) := by
  set d' := d.rename old.1 old.2 new.1 new.2
  have hview : d'.view = movedView d.view old new := view_rename ..
  have hnew : d'.view new = some c := by rw [hview, movedView, update_self, if_neg hne, hc]
  rw [resolveSegments, show d'.get new.1 new.2 = some c from hnew, resolveSegments,
    show d.get old.1 old.2 = some c from hc]
  clear hc hnew
  dsimp only
  -- below the directory no name has changed
  induction segments generalizing c with
  | nil => rfl
  | cons segment rest ih =>
    obtain ⟨hold, hnew⟩ : c ≠ old.1 ∧ c ≠ new.1 := by simpa [resolveSegments] using hbelow []
    have hsame : d'.get c segment = d.get c segment := by
      refine (congrFun hview (c, segment)).trans ?_
      rw [movedView, update_of_ne fun h => hnew (congrArg Prod.fst h),
        update_of_ne fun h => hold (congrArg Prod.fst h)]
      rfl
    rw [resolveSegments, resolveSegments, hsame]
    cases hchild : d.get c segment with
    | none => rfl
    | some child =>
      refine ih fun rest => ?_
      have hrest := hbelow (segment :: rest)
      rwa [resolveSegments, hchild] at hrest

theorem resolveSegments_rename_first :
    ((empty.insert 1 [97] 2).rename 1 [97] 1 [98]).resolveSegments 1 [[98], [99]] = (2, [[99]]) :=
  @resolveSegments_rename _ 2 (1, [97]) (1, [98]) (by decide) rfl
    (by rintro (_ | _) <;> exact (by decide : 2 ∉ [1, 1])) [[99]]

end DentryIndex

end Virtiofsd
