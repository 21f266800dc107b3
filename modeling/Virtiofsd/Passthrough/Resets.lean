/-
  # Strong references and resets

  DESTROY, INIT, a device reset and a migration that is applied clear the inode store.  They
  do not wait for the threads that serve other requests, and these may hold strong references
  that were taken before.  The `InodeData`s of such references live on, but they are no longer
  in the store; what is in it was inserted AFTER the clear.

  Dropping a strong reference is `forget_one` of the ID of its inode, and `forget_one` takes
  whatever the store has under that ID.  The IDs of lookups are never given out twice, so this
  is nothing.  But the root always has the ID 1, and a migration restores the IDs of the
  source: under these IDs an old reference takes a new inode's refcount down.
-/
import Virtiofsd.InodeStore.Index
import Virtiofsd.Passthrough.Actions

namespace Virtiofsd

open Lib InodeStoreInner List

/-! ## 1. Dropping references -/

namespace InodeStoreInner

variable {s s' : InodeStoreInner} {i : Inode} {r : InodeRef}

/-- **`clear` while others hold `Arc`s**: the maps are empty, the `InodeData`s stay. -/
def emptied (s : InodeStoreInner) : InodeStoreInner :=
  { s.clearMigrationInfo with data := ∅, byIds := ∅, byHandle := ∅ }

variable {info : Option InodeMigrationInfo}

/-- When the last `Arc`s are gone, it is `clear`. -/
theorem clear_eq (s : InodeStoreInner) : s.clear = { s.emptied with cells := [] } := rfl

/-- `forget_one` and `remove`, with the strong references that `remove` drops by
`drop_unlocked`, each with the store it is dropped from. -/
def forgetTraced : Nat → InodeStoreInner → Inode → Nat →
    InodeStoreInner × List (InodeRef × InodeStoreInner)
  | 0, s, _, _ => (s, [])
  | fuel + 1, s, i, count =>
    match s.data.lookup i with
    | none => (s, [])
    | some a =>
      match s.cells[a]? with
      | none => (s, [])
      | some c =>
        let c' := { c with refcount := c.refcount - count }
        if c'.refcount = 0 then
          let removed := (s.setCell a c').detach a c'
          match infoParent c.migrationInfo with
          | some parent =>
            let (s', drops) := forgetTraced fuel removed parent.data.inode 1
            (s', (parent, removed) :: drops)
          | none => (removed, [])
        else (s.setCell a c', [])

theorem forgetTraced_fst : ∀ (fuel : Nat) (s : InodeStoreInner) (i : Inode) (count : Nat),
    (forgetTraced fuel s i count).1 = forgetLoop fuel s i count
  | 0, _, _, _ => rfl
  | fuel + 1, s, i, count => by
    unfold forgetTraced forgetLoop
    cases s.data.lookup i with
    | none => rfl
    | some a =>
      dsimp only
      cases s.cells[a]? with
      | none => rfl
      | some c =>
        have hparent : c.strongReference = (infoParent c.migrationInfo).map (·.data.inode) := by
          rcases c with ⟨_, _, _ | ⟨_ | _ | _, _⟩⟩ <;> rfl
        dsimp only
        rw [hparent]
        split
        · cases infoParent c.migrationInfo with
          | none => rfl
          | some parent => exact forgetTraced_fst fuel _ _ 1
        · rfl

/-- The references that `forget_one` drops. -/
def forgetDrops (s : InodeStoreInner) (i : Inode) (count : Nat) :
    List (InodeRef × InodeStoreInner) :=
  (forgetTraced (s.data.keys.length + 1) s i count).2

/-- One reference after the other is dropped, with what is dropped along with it. -/
def dropAll : List InodeRef → InodeStoreInner → List (InodeRef × InodeStoreInner)
  | [], _ => []
  | r :: refs, s =>
    (r, s) :: (s.forgetDrops r.data.inode 1 ++ dropAll refs (s.forgetOne r.data.inode 1))

/-- The references that `clear_migration_info` collects. -/
def takenRefs : List Inode → InodeStoreInner → List InodeRef
  | [], _ => []
  | i :: is, s =>
    if i = ROOT_ID then takenRefs is s
    else
      match s.data.lookup i with
      | none => takenRefs is s
      | some a =>
        match s.cells[a]? with
        | none => takenRefs is s
        | some c => (infoParent c.migrationInfo).toList ++
          takenRefs is (s.setCell a { c with migrationInfo := none })

theorem takeInfos_fst : ∀ (is : List Inode) (s : InodeStoreInner),
    (takeInfos is s).1 = (takenRefs is s).map (·.data.inode)
  | [], _ => rfl
  | i :: is, s => by
    unfold takeInfos takenRefs
    split
    · exact takeInfos_fst is s
    cases s.data.lookup i with
    | none => exact takeInfos_fst is s
    | some a =>
      dsimp only
      cases s.cells[a]? with
      | none => exact takeInfos_fst is s
      | some c =>
        dsimp only
        rw [takeInfos_fst is, map_append]
        congr 1
        rcases c with ⟨_, _, _ | ⟨_ | _ | _, _⟩⟩ <;> rfl

/-- The references that `clear_migration_info` drops by `drop_unlocked`. -/
def clearDrops (s : InodeStoreInner) : List (InodeRef × InodeStoreInner) :=
  dropAll (takenRefs s.inodes s) (takeInfos s.inodes s).2

/-- A reference in the migration info of some `InodeData`. -/
def HasInfoRef (s : InodeStoreInner) (r : InodeRef) : Prop :=
  ∃ c ∈ s.cells, infoParent c.migrationInfo = some r

theorem Kept.hasInfoRef (h : Kept s s') (hr : s'.HasInfoRef r) : s.HasInfoRef r := by
  obtain ⟨d, hd, hparent⟩ := hr
  obtain ⟨a, ha⟩ := mem_iff_getElem?.mp hd
  rcases h.info a d ha with hnone | ⟨c, hc, hinfo⟩
  · rw [hnone] at hparent
    cases hparent
  · exact ⟨c, mem_of_getElem? hc, hinfo ▸ hparent⟩

/-- **What is dropped along the way was in a migration info**, and the store it is dropped from
has nothing new. -/
theorem mem_forgetTraced : ∀ (fuel : Nat) (s : InodeStoreInner) (i : Inode) (count : Nat),
    ∀ x ∈ (forgetTraced fuel s i count).2, s.HasInfoRef x.1 ∧ Kept s x.2
  | 0, _, _, _, x, hx => absurd hx not_mem_nil
  | fuel + 1, s, i, count, x, hx => by
    unfold forgetTraced at hx
    split at hx
    · exact absurd hx not_mem_nil
    split at hx
    · exact absurd hx not_mem_nil
    rename_i a _ _ c hc
    dsimp only at hx
    split at hx
    · have hremoved : Kept s (s.removed a c count) := Kept.removed hc
      split at hx
      · rename_i parent hparent
        rcases mem_cons.mp hx with rfl | hx
        · exact ⟨⟨c, mem_of_getElem? hc, hparent⟩, hremoved⟩
        · obtain ⟨hr, hkept⟩ := mem_forgetTraced fuel _ _ 1 x hx
          exact ⟨hremoved.hasInfoRef hr, hremoved.trans hkept⟩
      · exact absurd hx not_mem_nil
    · exact absurd hx not_mem_nil

theorem mem_dropAll : ∀ (refs : List InodeRef) (s : InodeStoreInner), ∀ x ∈ dropAll refs s,
    (x.1 ∈ refs ∨ s.HasInfoRef x.1) ∧ Kept s x.2
  | [], _, x, hx => absurd hx not_mem_nil
  | r :: refs, s, x, hx => by
    rcases mem_cons.mp hx with rfl | hx
    · exact ⟨.inl mem_cons_self, Kept.refl s⟩
    · rcases mem_append.mp hx with hx | hx
      · obtain ⟨hr, hkept⟩ := mem_forgetTraced _ _ _ _ x hx
        exact ⟨.inr hr, hkept⟩
      · have hforget := ((Edits.refl (s := s)).forgetOne r.data.inode 1).kept
        obtain ⟨hr | hr, hkept⟩ := mem_dropAll refs _ x hx
        · exact ⟨.inl (mem_cons_of_mem _ hr), hforget.trans hkept⟩
        · exact ⟨.inr (hforget.hasInfoRef hr), hforget.trans hkept⟩

theorem mem_takenRefs : ∀ (is : List Inode) (s : InodeStoreInner), ∀ r ∈ takenRefs is s,
    s.HasInfoRef r
  | [], _, r, hr => absurd hr not_mem_nil
  | i :: is, s, r, hr => by
    unfold takenRefs at hr
    split at hr
    · exact mem_takenRefs is s r hr
    split at hr
    · exact mem_takenRefs is s r hr
    split at hr
    · exact mem_takenRefs is s r hr
    rename_i c hc
    rcases mem_append.mp hr with hr | hr
    · exact ⟨c, mem_of_getElem? hc, Option.mem_toList.mp hr⟩
    · have hset : Kept s (s.setCell _ { c with migrationInfo := none }) :=
        Kept.setCell hc rfl (.inl rfl)
      exact hset.hasInfoRef (mem_takenRefs is _ r hr)

theorem mem_clearDrops (s : InodeStoreInner) : ∀ x ∈ s.clearDrops,
    s.HasInfoRef x.1 ∧ Kept s x.2 := by
  intro x hx
  have htake := (Edits.takeInfos s.inodes (.refl (s := s))).kept
  obtain ⟨hr | hr, hkept⟩ := mem_dropAll _ _ x hx
  · exact ⟨mem_takenRefs s.inodes s x.1 hr, htake.trans hkept⟩
  · exact ⟨htake.hasInfoRef hr, htake.trans hkept⟩

/-- `forget_one` of an ID that is not in use does nothing. -/
theorem forgetOne_of_lookup_none (h : s.data.lookup i = none) (count : Nat) :
    s.forgetOne i count = s := by
  unfold forgetOne forgetLoop
  rw [h]

end InodeStoreInner

/-! ## 2. Threads and resets -/

/-- The strong references among some references. -/
def strongs (τ : Multiset Ref) : Multiset InodeRef :=
  τ.filterMap fun
    | .strong r => some r
    | .guest _ => none

@[simp] theorem strongs_zero : strongs 0 = 0 := rfl

@[simp] theorem strongs_strong (r : InodeRef) : strongs {.strong r} = {r} := rfl

theorem mem_strongs {τ : Multiset Ref} {r : InodeRef} : r ∈ strongs τ ↔ .strong r ∈ τ := by
  rw [strongs, Multiset.mem_filterMap]
  constructor
  · rintro ⟨_ | _, hmem, heq⟩
    · cases heq
      exact hmem
    · cases heq
  · exact fun h => ⟨_, h, rfl⟩

namespace SessionAct

/-- The strong references that an action consumes. -/
def uses : SessionAct → Multiset InodeRef
  | act a => strongs (refTokens.use a)
  | clear => 0
  | newInode c => strongs (infoTokens c.migrationInfo)
  | storeRefcount _ _ => 0

/-- The strong references that it gives. -/
def gives : (a : SessionAct) → a.Ans → Multiset InodeRef
  | act a, ans => strongs (refTokens.give a ans)
  | clear, _ => 0
  | newInode c, inserted => if inserted then 0 else strongs (infoTokens c.migrationInfo)
  | storeRefcount _ _, _ => 0

/-- **What an action does to the shared state**, while other threads hold `Arc`s. -/
def PerformShared : (a : SessionAct) → PassthroughFs → a.Ans → PassthroughFs → Prop
  | act a, fs, ans, fs' => a.Perform fs ans fs'
  | clear, fs, _, fs' => fs' = fs.withInodes fs.inodes.emptied
  | newInode c, fs, inserted, fs' =>
    match fs.inodes.newInode c with
    | some s => inserted = true ∧ fs' = fs.withInodes s
    | none => inserted = false ∧ fs' = fs
  | storeRefcount r n, fs, _, fs' => fs' = fs.withInodes (fs.inodes.storeRefcount r n)

/-- The ID that an action puts a new inode under. -/
def inserts (s : InodeStoreInner) : SessionAct → Option Inode
  | act (.ref (.getOrInsert d info)) =>
    match (s.getOrInsert d info).1 with
    | .inserted _ => some d.inode
    | _ => none
  | newInode c => if s.contains c.data.inode then none else some c.data.inode
  | _ => none

/-- **The strong references that an action drops**, each with the store it is dropped from. -/
def drops (s : InodeStoreInner) : SessionAct → List (InodeRef × InodeStoreInner)
  | act (.ref (.dropRef r)) => dropAll [r] s
  | act (.ref (.forgetOne i n)) => s.forgetDrops i n
  | act (.ref (.forgetMany l)) => manyDrops l s
  | act (.ref .clearMigrationInfo) => s.clearDrops
  | clear => s.clearDrops
  | _ => []
where
  /-- Those of `forget_many`. -/
  manyDrops : List (Inode × Nat) → InodeStoreInner → List (InodeRef × InodeStoreInner)
    | [], _ => []
    | (i, n) :: l, s => s.forgetDrops i n ++ manyDrops l (s.forgetOne i n)

end SessionAct

/-- **The file system, the strong references that threads hold, and the number of `InodeData`s
that were built before the last clear.**  An address below `base` is that of an old inode. -/
structure Resets where
  fs : PassthroughFs
  held : Multiset InodeRef
  base : Nat

namespace Resets

/-- A strong reference that exists: a thread holds it, or a migration info. -/
def Outstanding (σ : Resets) (r : InodeRef) : Prop := r ∈ σ.held ∨ σ.fs.inodes.HasInfoRef r

/-- What was built before the last clear, after an action. -/
def baseAfter (σ : Resets) : SessionAct → Nat
  | .clear => σ.fs.inodes.cells.length
  | .act _ | .newInode _ | .storeRefcount _ _ => σ.base

/-- **One action of some thread.**  Nobody consumes a reference that is not held.  `ok`
restricts the actions. -/
inductive Step (ok : Resets → SessionAct → Prop) (a : SessionAct) : Resets → Resets → Prop where
  | mk {σ : Resets} {ans : a.Ans} {fs' : PassthroughFs} (hok : ok σ a) (huse : a.uses ≤ σ.held)
      (hperform : a.PerformShared σ.fs ans fs') :
      Step ok a σ ⟨fs', σ.held - a.uses + a.gives ans, σ.baseAfter a⟩

/-- The states that are reached from an empty store. -/
inductive Reached (ok : Resets → SessionAct → Prop) : Resets → Prop where
  | init {fs : PassthroughFs} (h : fs.inodes = .empty) : Reached ok ⟨fs, 0, 0⟩
  | step {σ σ' : Resets} {a : SessionAct} (hσ : Reached ok σ) (h : Step ok a σ σ') : Reached ok σ'

/-- **The condition**: no inode is inserted under an ID that a reference to an old inode still
has, and none is taken to an old inode whose ID is in use. -/
structure Distinct (σ : Resets) (a : SessionAct) : Prop where
  inserts : ∀ i, a.inserts σ.fs.inodes = some i → ∀ r, σ.Outstanding r → r.addr < σ.base →
    r.data.inode ≠ i
  increments : ∀ r, a = .act (.ref (.increment r)) → r.addr < σ.base →
    σ.fs.inodes.data.lookup r.data.inode = none

/-- **What was inserted after the clear is untouched**: its `InodeData`, its refcount, and its
place in the store. -/
def Untouched (base : Nat) (s s' : InodeStoreInner) : Prop :=
  ∀ addr, base ≤ addr → s'.cells[addr]? = s.cells[addr]? ∧
    ∀ i, s'.data.lookup i = some addr ↔ s.data.lookup i = some addr

end Resets

/-! ## 3. What an action can do -/

/-- Where a strong reference comes from: it was given to the action, it was in a migration info
or in the store, it is that of a new inode, or it was taken from an `Arc`. -/
inductive Source (s : InodeStoreInner) (a : SessionAct) (r : InodeRef) : Prop where
  | used (h : r ∈ a.uses)
  | info (h : s.HasInfoRef r)
  | stored {i : Inode} (h : s.data.lookup i = some r.addr)
  | new (h : r.addr = s.cells.length)
  | increment (h : a = .act (.ref (.increment r)))

/-- **What an action does to the store and to the references.** -/
structure Effects (s : InodeStoreInner) (a : SessionAct) (ans : a.Ans) (s' : InodeStoreInner) :
    Prop where
  lookup : ∀ i addr, s'.data.lookup i = some addr → s.data.lookup i = some addr ∨
    (a.inserts s = some i ∧ addr = s.cells.length)
  length : s.cells.length ≤ s'.cells.length
  gives : ∀ r ∈ a.gives ans, Source s a r
  infos : ∀ r, s'.HasInfoRef r → Source s a r

section Effects

variable {s s' : InodeStoreInner} {a : SessionAct} {ans : a.Ans}

/-- An action that inserts nothing. -/
theorem Effects.of_kept (h : Kept s s') (hgives : ∀ r ∈ a.gives ans, Source s a r) :
    Effects s a ans s' where
  lookup i addr hi := .inl (h.lookup i addr hi)
  length := h.length.ge
  gives := hgives
  infos _ hr := .info (h.hasInfoRef hr)

/-- An action that inserts an inode whose migration info it was given. -/
theorem Effects.of_insertNew {c : Cell} (hinserts : a.inserts s = some c.data.inode)
    (hinfo : ∀ r, infoParent c.migrationInfo = some r → r ∈ a.uses)
    (hgives : ∀ r ∈ a.gives ans, Source s a r) : Effects s a ans (s.insertNew c).2 where
  lookup i addr hi := by
    by_cases hic : i = c.data.inode
    · subst hic
      rw [InodeStoreInner.insertNew, AList.lookup_insert] at hi
      cases hi
      exact .inr ⟨hinserts, rfl⟩
    · rw [InodeStoreInner.insertNew, AList.lookup_insert_ne hic] at hi
      exact .inl hi
  length := by
    rw [InodeStoreInner.insertNew, length_append]
    exact Nat.le_add_right _ _
  gives := hgives
  infos r hr := by
    obtain ⟨d, hd, hparent⟩ := hr
    rcases mem_append.mp hd with hd | hd
    · exact .info ⟨d, hd, hparent⟩
    · rw [mem_singleton] at hd
      subst hd
      exact .used (hinfo r hparent)

theorem mem_strongs_infoTokens {r : InodeRef} :
    r ∈ strongs (infoTokens info) ↔ infoParent info = some r := by
  rw [mem_strongs]
  constructor
  · exact strong_mem_infoTokens
  · intro h
    rw [infoTokens, h]
    exact Multiset.mem_singleton_self _

theorem exchangeInfo_effects {r : InodeRef} :
    Effects s (.act (.ref (.exchangeInfo r info))) (s.exchangeInfo r info).1
      (s.exchangeInfo r info).2 := by
  have hused : ∀ r', infoParent info = some r' →
      r' ∈ SessionAct.uses (.act (.ref (.exchangeInfo r info))) :=
    fun r' h => mem_strongs_infoTokens.mpr h
  unfold InodeStoreInner.exchangeInfo
  split
  · rename_i c hd
    have hc := (deref_eq_some hd).1
    refine ⟨fun i addr hi => .inl hi, length_set.ge, fun r' hr' => ?_, fun r' hr' => ?_⟩
    · exact .info ⟨c, mem_of_getElem? hc, mem_strongs_infoTokens.mp hr'⟩
    · obtain ⟨d, hd', hparent⟩ := hr'
      rcases mem_or_eq_of_mem_set hd' with hd' | rfl
      · exact .info ⟨d, hd', hparent⟩
      · exact .used (hused r' hparent)
  · refine ⟨fun i addr hi => .inl hi, le_rfl, fun r' hr' => ?_, fun r' hr' => .info hr'⟩
    exact .used (hused r' (mem_strongs_infoTokens.mp hr'))

/-- What `claim_inode` finds is in the store. -/
theorem stored_of_claimInode {handle : Option FileHandle} {ids : InodeIds} {r : InodeRef}
    (h : (s.claimInode handle ids).1 = .found r) : ∃ i, s.data.lookup i = some r.addr := by
  have hfind : s.findInode handle ids = .found r := by
    unfold InodeStoreInner.claimInode at h
    cases hf : s.findInode handle ids with
    | found r₀ =>
      rw [hf] at h
      cases hi : s.incrementRefcount r₀ with
      | mk ok s₁ => cases ok <;> simp [hi] at h; rw [h]
    | notFound | dangling => simp [hf] at h
  unfold InodeStoreInner.findInode at hfind
  split at hfind
  · rename_i i hi
    cases hget : s.get i with
    | none => simp [hget] at hfind
    | some r₀ =>
      obtain rfl : r₀ = r := by simpa [hget] using hfind
      exact ⟨i, (get_eq_some.mp hget).1⟩
  · split at hfind
    · rename_i i hi
      split at hfind
      · rename_i r₀ hget
        split at hfind
        · obtain rfl : r₀ = r := by simpa using hfind
          exact ⟨i, (get_eq_some.mp hget).1⟩
        · cases hfind
      · cases hfind
    · cases hfind

theorem getOrInsert_effects {d : InodeData} :
    Effects s (.act (.ref (.getOrInsert d info))) (s.getOrInsert d info).1
      (s.getOrInsert d info).2 := by
  have hused : ∀ r, infoParent info = some r →
      r ∈ SessionAct.uses (.act (.ref (.getOrInsert d info))) :=
    fun r h => mem_strongs_infoTokens.mpr h
  rcases getOrInsert_cases s d info with ⟨r, h, hclaim⟩ | ⟨h, -⟩ | h | ⟨h, -, hnew⟩
  · rw [h]
    refine Effects.of_kept (Edits.claimInode _ _).kept fun r' hr' => ?_
    rcases Multiset.mem_add.mp (mem_strongs.mp hr') with hr' | hr'
    · cases Multiset.mem_singleton.mp hr'
      obtain ⟨i, hi⟩ := stored_of_claimInode hclaim
      exact .stored hi
    · exact .used (hused r' (strong_mem_infoTokens hr'))
  · rw [h]
    exact Effects.of_kept (Kept.refl _) fun r hr => .used (hused r (mem_strongs_infoTokens.mp hr))
  · rw [h]
    exact Effects.of_kept (Kept.refl _) fun r hr => .used (hused r (mem_strongs_infoTokens.mp hr))
  · have hinserts : SessionAct.inserts s (.act (.ref (.getOrInsert d info))) = some d.inode := by
      rw [SessionAct.inserts, h]
    rw [h]
    refine Effects.of_insertNew (c := ⟨d, 1, info⟩) hinserts hused fun r hr => ?_
    cases Multiset.mem_singleton.mp (mem_strongs.mp hr)
    exact .new rfl

theorem newInode_effects {c : Cell} {fs fs' : PassthroughFs} {inserted : Bool}
    (h : SessionAct.PerformShared (.newInode c) fs inserted fs') :
    Effects fs.inodes (.newInode c) inserted fs'.inodes := by
  simp only [SessionAct.PerformShared, InodeStoreInner.newInode] at h
  by_cases hused : fs.inodes.contains c.data.inode = true
  · rw [if_pos hused] at h
    obtain ⟨rfl, rfl⟩ := h
    exact Effects.of_kept (Kept.refl _) fun r hr => .used hr
  · rw [if_neg hused] at h
    obtain ⟨rfl, rfl⟩ := h
    refine Effects.of_insertNew (if_neg hused) (fun r hr => mem_strongs_infoTokens.mpr hr) ?_
    exact fun r hr => absurd hr (Multiset.notMem_zero r)

theorem storeRefcount_kept (r : InodeRef) (n : Nat) : Kept s (s.storeRefcount r n) := by
  unfold InodeStoreInner.storeRefcount
  split
  · rename_i c hd
    exact Kept.setCell (deref_eq_some hd).1 rfl (.inr rfl)
  · exact Kept.refl s

theorem increment_effects {r : InodeRef} :
    Effects s (.act (.ref (.increment r))) (s.incrementRefcount r).1 (s.incrementRefcount r).2 := by
  refine Effects.of_kept (Edits.incrementRefcount _).kept fun r' hr' => ?_
  have hmem := mem_strongs.mp hr'
  cases hok : (s.incrementRefcount r).1 with
  | false =>
    rw [hok] at hmem
    exact absurd hmem (Multiset.notMem_zero _)
  | true =>
    rw [hok] at hmem
    cases Multiset.mem_singleton.mp hmem
    exact .increment rfl

theorem claim_effects {handle : Option FileHandle} {ids : InodeIds} :
    Effects s (.act (.ref (.claim handle ids))) (s.claimInode handle ids).1
      (s.claimInode handle ids).2 := by
  refine Effects.of_kept (Edits.claimInode _ _).kept fun r' hr' => ?_
  have hmem := mem_strongs.mp hr'
  cases hk : (s.claimInode handle ids).1 with
  | found r =>
    rw [hk] at hmem
    cases Multiset.mem_singleton.mp hmem
    obtain ⟨i, hi⟩ := stored_of_claimInode hk
    exact .stored hi
  | notFound | dangling =>
    rw [hk] at hmem
    exact absurd hmem (Multiset.notMem_zero _)

theorem adopt_effects {i : Inode} : Effects s (.act (.ref (.adopt i))) (s.get i) s := by
  refine Effects.of_kept (Kept.refl _) fun r' hr' => ?_
  have hmem := mem_strongs.mp hr'
  cases hget : s.get i with
  | none =>
    rw [hget] at hmem
    exact absurd hmem (Multiset.notMem_zero _)
  | some r =>
    rw [hget] at hmem
    cases Multiset.mem_singleton.mp hmem
    exact .stored (get_eq_some.mp hget).1

/-- **What every action does.** -/
theorem SessionAct.PerformShared.effects {fs fs' : PassthroughFs}
    (h : a.PerformShared fs ans fs') : Effects fs.inodes a ans fs'.inodes := by
  have hnone : ∀ r, r ∉ strongs 0 := fun r hr => absurd (mem_strongs.mp hr) (Multiset.notMem_zero _)
  cases a with
  | clear =>
    obtain rfl := h
    have hkept := (Edits.clearMigrationInfo (s := fs.inodes)).kept
    refine ⟨fun i addr hi => ?_, hkept.length.ge, fun r hr => absurd hr (Multiset.notMem_zero r),
      fun r hr => .info (hkept.hasInfoRef hr)⟩
    simp [InodeStoreInner.emptied] at hi
  | newInode c => exact newInode_effects h
  | storeRefcount r n =>
    obtain rfl := h
    exact Effects.of_kept (storeRefcount_kept r n) fun r hr => absurd hr (Multiset.notMem_zero r)
  | act a =>
    rcases a with (c | q) | a
    · obtain rfl := h
      exact Effects.of_kept (Kept.refl _) fun r hr => absurd hr (hnone r)
    · have hs := PassthroughFs.answer_inodes q fs
      rw [h] at hs
      rw [hs]
      exact Effects.of_kept (Kept.refl _) fun r hr => absurd hr (hnone r)
    · cases a with
      | increment r =>
        cases h
        exact increment_effects
      | claim handle ids =>
        cases h
        exact claim_effects
      | getOrInsert d info =>
        cases h
        exact getOrInsert_effects
      | dropRef r =>
        cases h
        exact Effects.of_kept (Edits.refl.forgetOne _ _).kept fun r hr => absurd hr (hnone r)
      | leak r =>
        cases h
        refine Effects.of_kept (Kept.refl _) fun r' hr' => ?_
        exact nomatch Multiset.mem_singleton.mp (mem_strongs.mp hr')
      | adopt i =>
        cases h
        exact adopt_effects
      | forgetOne i n =>
        cases h
        exact Effects.of_kept (Edits.refl.forgetOne _ _).kept fun r hr => absurd hr (hnone r)
      | forgetMany l =>
        cases h
        exact Effects.of_kept (Edits.forgetMany _ .refl).kept fun r hr => absurd hr (hnone r)
      | exchangeInfo r info =>
        cases h
        exact exchangeInfo_effects
      | clearMigrationInfo =>
        cases h
        exact Effects.of_kept Edits.clearMigrationInfo.kept fun r hr => absurd hr (hnone r)

end Effects

/-! ## 4. Old references and new inodes -/

namespace Resets

variable {σ σ' : Resets} {a : SessionAct}

/-- What the condition keeps: references to old inodes have IDs that are not in use. -/
structure Apart (σ : Resets) : Prop where
  old : ∀ r, σ.Outstanding r → r.addr < σ.base → σ.fs.inodes.data.lookup r.data.inode = none
  new : ∀ i addr, σ.fs.inodes.data.lookup i = some addr → σ.base ≤ addr
  base : σ.base ≤ σ.fs.inodes.cells.length

/-- A reference that exists after an action, and where it comes from. -/
theorem source_of_outstanding {ans : a.Ans} {fs' : PassthroughFs} {base : Nat} {r : InodeRef}
    (heffects : Effects σ.fs.inodes a ans fs'.inodes) (huse : a.uses ≤ σ.held)
    (hr : Outstanding ⟨fs', σ.held - a.uses + a.gives ans, base⟩ r) :
    σ.Outstanding r ∨ (∃ i, σ.fs.inodes.data.lookup i = some r.addr) ∨
      r.addr = σ.fs.inodes.cells.length ∨ a = .act (.ref (.increment r)) := by
  have hsource : σ.Outstanding r ∨ Source σ.fs.inodes a r := by
    rcases hr with hr | hr
    · rcases Multiset.mem_add.mp hr with hr | hr
      · exact .inl (.inl (Multiset.mem_of_le (Multiset.sub_le_self _ _) hr))
      · exact .inr (heffects.gives r hr)
    · exact .inr (heffects.infos r hr)
  rcases hsource with hr | hr
  · exact .inl hr
  · cases hr with
    | used h => exact .inl (.inl (Multiset.mem_of_le huse h))
    | info h => exact .inl (.inr h)
    | stored h => exact .inr (.inl ⟨_, h⟩)
    | new h => exact .inr (.inr (.inl h))
    | increment h => exact .inr (.inr (.inr h))

/-- **One step keeps them apart.** -/
theorem Step.apart (h : Step Distinct a σ σ') (hσ : σ.Apart) : σ'.Apart := by
  cases h with
  | @mk ans fs' hok huse hperform =>
    have heffects := hperform.effects
    by_cases hclear : a = .clear
    · -- Nothing is in the store, so no ID is in use.
      subst hclear
      obtain rfl := hperform
      refine ⟨fun r _ _ => rfl, fun i addr hi => ?_, heffects.length⟩
      simp [InodeStoreInner.emptied] at hi
    · have hbase : σ.baseAfter a = σ.base := by
        cases a with
        | clear => exact absurd rfl hclear
        | act | newInode | storeRefcount => rfl
      rw [hbase]
      refine ⟨fun r hr hold => ?_, fun i addr hi => ?_, hσ.base.trans heffects.length⟩
      · have hfree : σ.fs.inodes.data.lookup r.data.inode = none ∧
            a.inserts σ.fs.inodes ≠ some r.data.inode := by
          rcases source_of_outstanding heffects huse hr with hr | ⟨i, hi⟩ | hr | rfl
          · exact ⟨hσ.old r hr hold, fun hi => hok.inserts _ hi r hr hold rfl⟩
          · exact absurd (hσ.new i _ hi) (Nat.not_le.mpr hold)
          · exact absurd hσ.base (Nat.not_le.mpr (hr ▸ hold))
          · exact ⟨hok.increments r rfl hold, fun hi => (nomatch hi)⟩
        refine Option.eq_none_iff_forall_ne_some.mpr fun addr haddr => ?_
        rcases heffects.lookup _ addr haddr with hi | ⟨hi, -⟩
        · exact nomatch hfree.1.symm.trans hi
        · exact hfree.2 hi
      · rcases heffects.lookup i addr hi with hi | ⟨-, rfl⟩
        · exact hσ.new i addr hi
        · exact hσ.base

theorem Reached.apart (h : Reached Distinct σ) : σ.Apart := by
  induction h with
  | init h => exact ⟨fun r _ hold => absurd hold (Nat.not_lt_zero _), fun i addr _ => Nat.zero_le _,
      Nat.zero_le _⟩
  | step _ hstep ih => exact hstep.apart ih

/-- What an action drops is a reference that exists, from a store with nothing new. -/
theorem of_mem_drops (huse : a.uses ≤ σ.held) {x : InodeRef × InodeStoreInner}
    (hx : x ∈ a.drops σ.fs.inodes) : σ.Outstanding x.1 ∧ Kept σ.fs.inodes x.2 := by
  have hinfo : σ.fs.inodes.HasInfoRef x.1 ∧ Kept σ.fs.inodes x.2 →
      σ.Outstanding x.1 ∧ Kept σ.fs.inodes x.2 := fun h => ⟨.inr h.1, h.2⟩
  cases a with
  | clear => exact hinfo (mem_clearDrops _ x hx)
  | newInode | storeRefcount => exact absurd hx not_mem_nil
  | act a =>
    rcases a with n | a
    · exact absurd hx not_mem_nil
    · cases a with
      | dropRef r =>
        obtain ⟨hr | hr, hkept⟩ := mem_dropAll [r] σ.fs.inodes x hx
        · rw [mem_singleton] at hr
          have hheld : x.1 ∈ σ.held :=
            Multiset.mem_of_le huse (mem_strongs.mpr (hr ▸ Multiset.mem_singleton_self _))
          exact ⟨.inl hheld, hkept⟩
        · exact ⟨.inr hr, hkept⟩
      | forgetOne i n => exact hinfo (mem_forgetTraced _ _ _ _ x hx)
      | forgetMany l => exact hinfo (mem_manyDrops l _ x hx)
      | clearMigrationInfo => exact hinfo (mem_clearDrops _ x hx)
      | increment | claim | getOrInsert | leak | adopt | exchangeInfo => exact absurd hx not_mem_nil
where
  mem_manyDrops : ∀ (l : List (Inode × Nat)) (s : InodeStoreInner),
      ∀ x ∈ SessionAct.drops.manyDrops l s, s.HasInfoRef x.1 ∧ Kept s x.2
    | [], _, x, hx => absurd hx not_mem_nil
    | (i, n) :: l, s, x, hx => by
      have hforget := ((Edits.refl (s := s)).forgetOne i n).kept
      rcases mem_append.mp hx with hx | hx
      · exact mem_forgetTraced _ _ _ _ x hx
      · obtain ⟨hr, hkept⟩ := mem_manyDrops l _ x hx
        exact ⟨hforget.hasInfoRef hr, hforget.trans hkept⟩

/-- **Strong references do not outlive a reset**, if their IDs do not come back: in every run
that meets the condition, whatever action drops a reference to an inode from before the last
clear, by `drop` or `drop_unlocked`, no inode inserted after it is touched. -/
theorem stale_drop_harmless (hσ : Reached Distinct σ) (hstep : Step Distinct a σ σ')
    {x : InodeRef × InodeStoreInner} (hx : x ∈ a.drops σ.fs.inodes) (hold : x.1.addr < σ.base) :
    Untouched σ.base x.2 (x.2.forgetOne x.1.data.inode 1) := by
  cases hstep with
  | @mk ans fs' hok huse hperform =>
    obtain ⟨hr, hkept⟩ := of_mem_drops huse hx
    have hnone : x.2.data.lookup x.1.data.inode = none := by
      refine Option.eq_none_iff_forall_ne_some.mpr fun addr haddr => ?_
      exact nomatch (hσ.apart.old _ hr hold).symm.trans (hkept.lookup _ addr haddr)
    rw [forgetOne_of_lookup_none hnone]
    exact fun addr _ => ⟨rfl, fun i => Iff.rfl⟩

/-! ## 5. The root comes back -/

/-- The root, and another inode. -/
def sampleRoot : InodeData := ⟨ROOT_ID, .file 3, ⟨1, 1, 1⟩, 0⟩
def sampleChild : InodeData := ⟨2, .file 4, ⟨2, 1, 1⟩, 0⟩

/-- The states of a session with these inodes: a thread takes a strong reference to one of
them, the store is cleared, and a new session begins. -/
def opened : Resets :=
  ⟨(PassthroughFs.initial 9 false).withInodes (InodeStoreInner.empty.insertNew
    ⟨sampleRoot, 2, none⟩).2, 0, 0⟩
def looked : Resets :=
  ⟨opened.fs.withInodes (opened.fs.inodes.insertNew ⟨sampleChild, 1, none⟩).2, 0, 0⟩
def taken (r : InodeRef) : Resets :=
  ⟨looked.fs.withInodes (looked.fs.inodes.incrementRefcount r).2, {r}, 0⟩
def cleared (r : InodeRef) : Resets :=
  ⟨(taken r).fs.withInodes (taken r).fs.inodes.emptied, {r}, (taken r).fs.inodes.cells.length⟩
def reopened (r : InodeRef) : Resets :=
  ⟨(cleared r).fs.withInodes ((cleared r).fs.inodes.insertNew ⟨sampleRoot, 2, none⟩).2, {r},
    (cleared r).base⟩

section

variable {ok : Resets → SessionAct → Prop}

theorem Reached.perform (h : Reached ok σ) (a : SessionAct) (ans : a.Ans) {fs' : PassthroughFs}
    {held : Multiset InodeRef} (hok : ok σ a) (huses : a.uses = 0)
    (hperform : a.PerformShared σ.fs ans fs') (hheld : σ.held + a.gives ans = held) :
    Reached ok ⟨fs', held, σ.baseAfter a⟩ := by
  have hstep := Step.mk hok (huses ▸ Multiset.zero_le σ.held) hperform
  rw [huses, tsub_zero, hheld] at hstep
  exact h.step hstep

theorem reopened_reached (r : InodeRef) (hr : (looked.fs.inodes.incrementRefcount r).1 = true)
    (hok : ∀ σ a, σ.base = 0 → ok σ a)
    (hnew : ok (cleared r) (.newInode ⟨sampleRoot, 2, none⟩)) : Reached ok (reopened r) := by
  have h₀ : Reached ok ⟨PassthroughFs.initial 9 false, 0, 0⟩ := .init rfl
  have h₁ : Reached ok opened :=
    h₀.perform (.newInode ⟨sampleRoot, 2, none⟩) true (hok _ _ rfl) rfl ⟨rfl, rfl⟩ rfl
  have h₂ : Reached ok looked :=
    h₁.perform (.newInode ⟨sampleChild, 1, none⟩) true (hok _ _ rfl) rfl ⟨rfl, rfl⟩ rfl
  have h₃ : Reached ok (taken r) :=
    h₂.perform (.act (.ref (.increment r))) true (hok _ _ rfl) rfl (Prod.ext hr rfl) rfl
  have h₄ : Reached ok (cleared r) := h₃.perform .clear () (hok _ _ rfl) rfl rfl rfl
  exact h₄.perform _ true hnew rfl ⟨rfl, rfl⟩ rfl

end

/-- The references to the two inodes of the first session. -/
def rootRef : InodeRef := ⟨0, sampleRoot⟩
def childRef : InodeRef := ⟨1, sampleChild⟩

/-- Dropping a reference that a thread holds. -/
theorem step_dropRef {ok : Resets → SessionAct → Prop} {r : InodeRef}
    (hok : ok σ (.act (.ref (.dropRef r)))) (hr : r ∈ σ.held) :
    ∃ σ', Step ok (.act (.ref (.dropRef r))) σ σ' := by
  have hperform : SessionAct.PerformShared (.act (.ref (.dropRef r))) σ.fs ()
      (σ.fs.withInodes (σ.fs.inodes.forgetOne r.data.inode 1)) := rfl
  exact ⟨_, .mk hok (Multiset.singleton_le.mpr hr) hperform⟩

/-- **A new root loses a lookup.**  The reference was taken before the clear, and the refcount
of the root that was inserted after it goes down when it is dropped. -/
theorem stale_drop_forgets_new_root : ∃ σ σ', Reached (fun _ _ => True) σ ∧
    Step (fun _ _ => True) (.act (.ref (.dropRef rootRef))) σ σ' ∧
    ∃ x ∈ SessionAct.drops σ.fs.inodes (.act (.ref (.dropRef rootRef))), x.1.addr < σ.base ∧
      ¬ Untouched σ.base x.2 (x.2.forgetOne x.1.data.inode 1) := by
  obtain ⟨σ', hstep⟩ : ∃ σ', Step (fun _ _ => True) (.act (.ref (.dropRef rootRef)))
      (reopened rootRef) σ' := step_dropRef trivial (Multiset.mem_singleton_self _)
  refine ⟨_, σ', reopened_reached rootRef (by decide) (fun _ _ _ => trivial) trivial, hstep,
    (rootRef, (reopened rootRef).fs.inodes), mem_cons_self, by decide, fun h => ?_⟩
  have hcell := (h 2 (by decide)).1
  exact absurd hcell (by decide)

/-- A reference to another inode, whose ID does not come back. -/
theorem stale_drop_harmless_child :
    Untouched (reopened childRef).base (reopened childRef).fs.inodes
      ((reopened childRef).fs.inodes.forgetOne 2 1) := by
  have hok : ∀ (σ : Resets) (a : SessionAct), σ.base = 0 → σ.Distinct a := by
    intro σ a hbase
    refine ⟨fun i _ r _ hold => ?_, fun r _ hold => ?_⟩ <;>
      exact absurd (hbase ▸ hold) (Nat.not_lt_zero _)
  have hinfos : ∀ c ∈ (cleared childRef).fs.inodes.cells, infoParent c.migrationInfo = none := by
    decide
  have hnew : (cleared childRef).Distinct (.newInode ⟨sampleRoot, 2, none⟩) := by
    refine ⟨?_, fun r h => (nomatch h)⟩
    rintro i ⟨⟩ r (hr | ⟨c, hc, hr⟩) -
    · rw [Multiset.mem_singleton.mp hr]
      decide
    · rw [hinfos c hc] at hr
      cases hr
  have hdrop : (reopened childRef).Distinct (.act (.ref (.dropRef childRef))) :=
    ⟨fun i h => (nomatch h), fun r h => (nomatch h)⟩
  obtain ⟨σ', hstep⟩ := step_dropRef hdrop (Multiset.mem_singleton_self _)
  exact stale_drop_harmless (reopened_reached childRef (by decide) hok hnew) hstep
    (x := (childRef, (reopened childRef).fs.inodes)) mem_cons_self (by decide)

end Resets

end Virtiofsd
