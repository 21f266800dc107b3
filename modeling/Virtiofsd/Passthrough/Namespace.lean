/-
  # The dentry index and the names on the host

  A guest that is alone on the host changes names only by its own requests.  The model has the
  host's directories, the inodes of the files the guest has, the dentry index, and the names
  the guest KNOWS: it has looked them up, and has not forgotten the inode they lead to.  (The
  names `.` and `..` are no directory entries, and left out.)  What a request tells the index
  is that of `IndexOps`, see `NameStep.indexOps`.

  The index follows the names, but for RENAME: `DentryIndex::rename` knows nothing of the flags
  and of the case that both names lead to the same file.  With `RENAME_EXCHANGE` one of the
  names is lost, and so is a name that is renamed to itself or to another link of its file.
-/
import Virtiofsd.Passthrough.Dentries
import Mathlib.Data.Set.Insert

namespace Virtiofsd

open Lib Function

/-! ## 1. Names on the host -/

def RENAME_NOREPLACE : UInt32 := 1
def RENAME_EXCHANGE : UInt32 := 2
def RENAME_WHITEOUT : UInt32 := 4

section

variable {F : Type} [DecidableEq F]

/-- A file the host has just made: nothing leads to it. -/
def Unnamed (entry : F × Name → Option F) (inode : F → Option Inode) (f : F) : Prop :=
  inode f = none ∧ ∀ k, entry k ≠ some f

/-- **What `renameat2` does to the names**, if it succeeds.  Between two names of one file,
nothing; `whiteout` is the file that takes the old name with `RENAME_WHITEOUT`. -/
inductive Renamed (entry : F × Name → Option F) (old new : F × Name) (flags : UInt32)
    (whiteout : F) : (F × Name → Option F) → Prop where
  | same (f : F) (hold : entry old = some f) (hnew : entry new = some f)
      (hflags : flags &&& RENAME_NOREPLACE = 0) : Renamed entry old new flags whiteout entry
  | exchange (f g : F) (hold : entry old = some f) (hnew : entry new = some g)
      (hflags : flags &&& RENAME_EXCHANGE ≠ 0) : Renamed entry old new flags whiteout
        (Function.update (Function.update entry old (some g)) new (some f))
  | move (f : F) (hold : entry old = some f) (hnew : entry new ≠ some f)
      (hflags : flags &&& RENAME_EXCHANGE = 0)
      (hfree : flags &&& RENAME_NOREPLACE ≠ 0 → entry new = none) :
      Renamed entry old new flags whiteout
        (Function.update (Function.update entry old
          (if flags &&& RENAME_WHITEOUT = 0 then none else some whiteout)) new (some f))

/-! ## 2. The guest -/

/-- **The names**: on the host, in the index, and those the guest knows.  `inode` are the
inodes in the store, and `next` the next number. -/
structure GuestNames (F : Type) where
  entry : F × Name → Option F
  inode : F → Option Inode
  next : Nat
  index : DentryIndex
  known : Set (Inode × Name)

namespace GuestNames

/-- The guest has the root directory, and nothing else. -/
def start (entry : F × Name → Option F) (root : F) : GuestNames F where
  entry := entry
  inode := Function.update (fun _ => none) root (some ROOT_ID)
  next := ROOT_ID + 1
  index := .empty
  known := ∅

/-- The inode a lookup of the file finds, or makes. -/
def found (n : GuestNames F) (f : F) : Inode := (n.inode f).getD n.next

/-- `do_lookup` has found the file. -/
def lookedUp (n : GuestNames F) (parent : Inode) (name : Name) (f : F) : GuestNames F :=
  { n with
    inode := Function.update n.inode f (some (n.found f))
    next := if (n.inode f).isSome then n.next else n.next + 1
    index := n.index.apply (.insert parent name (n.found f))
    known := insert (parent, name) n.known }

/-- A name on the host leads elsewhere. -/
def withEntry (n : GuestNames F) (k : F × Name) (f : Option F) : GuestNames F :=
  { n with entry := Function.update n.entry k f }

/-- The name is gone. -/
def removed (n : GuestNames F) (d : F) (parent : Inode) (name : Name) : GuestNames F :=
  { n.withEntry (d, name) none with index := n.index.apply (.remove parent name) }

/-- The names are `entry` after a rename.  The guest knows the new name if it knew the old one;
what it does not know is a file that the host has put in the old place. -/
def renamed (n : GuestNames F) (entry : F × Name → Option F) (old new : Inode × Name)
    (flags : UInt32) : GuestNames F :=
  { n with
    entry := entry
    index := n.index.apply (.rename old.1 old.2 new.1 new.2)
    known := { k | k = new ∧ old ∈ n.known ∨
      k ∈ n.known ∧ ¬ (k = old ∧ flags &&& RENAME_WHITEOUT ≠ 0) } }

/-- The last reference to the inode is gone, and so are the names that lead to it. -/
def forgotten (n : GuestNames F) (i : Inode) : GuestNames F :=
  { n with
    inode := fun f => if n.inode f = some i then none else n.inode f
    index := n.index.apply (.forget i)
    known := { k | k ∈ n.known ∧ ∀ d f, n.inode d = some k.1 → n.entry (d, k.2) = some f →
      n.inode f ≠ some i } }

end GuestNames

/-- The name a request makes, for a new file. -/
def Request.madeName : Request → Option (Inode × Name)
  | .mkdir _ parent name _ _ _ => some (parent, name)
  | .mknod _ parent name _ _ _ _ => some (parent, name)
  | .symlink _ _ parent name _ => some (parent, name)
  | .create _ parent name _ _ _ _ _ => some (parent, name)
  | _ => none

/-- The name a request finds. -/
def Request.foundName : Request → Option (Inode × Name)
  | .lookup parent name => some (parent, name)
  | .create _ parent name _ _ _ _ _ => some (parent, name)
  | _ => none

/-- The name a request removes. -/
def Request.removedName : Request → Option (Inode × Name)
  | .unlink parent name => some (parent, name)
  | .rmdir parent name => some (parent, name)
  | _ => none

/-- The inodes a request gives up. -/
def Request.forgottenInodes : Request → List Inode
  | .forget inode _ => [inode]
  | .batchForget requests => requests.map Prod.fst
  | _ => []

/-- **One request that succeeds.**  `d` are the directories of the inodes in the request. -/
inductive NameStep (n : GuestNames F) : Request → GuestNames F → Prop where
  | find {r : Request} {parent : Inode} {name : Name} (d f : F)
      (hr : r.foundName = some (parent, name)) (hd : n.inode d = some parent)
      (hf : n.entry (d, name) = some f) : NameStep n r (n.lookedUp parent name f)
  | make {r : Request} {parent : Inode} {name : Name} (d f : F)
      (hr : r.madeName = some (parent, name)) (hd : n.inode d = some parent)
      (hfree : n.entry (d, name) = none) (hf : Unnamed n.entry n.inode f) :
      NameStep n r ((n.withEntry (d, name) (some f)).lookedUp parent name f)
  | link (inode newparent : Inode) (newname : Name) (d f : F) (hf : n.inode f = some inode)
      (hd : n.inode d = some newparent) (hfree : n.entry (d, newname) = none) :
      NameStep n (.link inode newparent newname)
        ((n.withEntry (d, newname) (some f)).lookedUp newparent newname f)
  | remove {r : Request} {parent : Inode} {name : Name} (d : F)
      (hr : r.removedName = some (parent, name)) (hd : n.inode d = some parent)
      (hf : n.entry (d, name) ≠ none) : NameStep n r (n.removed d parent name)
  | rename (olddir : Inode) (oldname : Name) (newdir : Inode) (newname : Name) (flags : UInt32)
      (d d' whiteout : F) (entry : F × Name → Option F) (hd : n.inode d = some olddir)
      (hd' : n.inode d' = some newdir)
      (hw : flags &&& RENAME_WHITEOUT ≠ 0 → Unnamed n.entry n.inode whiteout)
      (h : Renamed n.entry (d, oldname) (d', newname) flags whiteout entry) :
      NameStep n (.rename olddir oldname newdir newname flags)
        (n.renamed entry (olddir, oldname) (newdir, newname) flags)
  | forget {r : Request} (gone : List Inode) (h : gone.Sublist r.forgottenInodes)
      (hr : r.forgottenInodes ≠ []) : NameStep n r (gone.foldl GuestNames.forgotten n)
  | file (request : FileRequest) : NameStep n (.file request) n

/-- A run of requests, each of which meets the condition. -/
inductive NameRun (C : GuestNames F → Request → Prop) :
    GuestNames F → List Request → GuestNames F → Prop where
  | nil (n : GuestNames F) : NameRun C n [] n
  | cons {n n' n'' : GuestNames F} {r : Request} {rs : List Request} (hr : C n r)
      (hs : NameStep n r n') (h : NameRun C n' rs n'') : NameRun C n (r :: rs) n''

/-- **The index shows what is on the host**: a name is in the index if it exists, with the
inode of the file it leads to. -/
def GuestNames.Shows (n : GuestNames F) (d : F) (parent : Inode) (name : Name) : Prop :=
  (n.entry (d, name) = none ∧ n.index.get parent name = none) ∨
    ∃ f i, n.entry (d, name) = some f ∧ n.inode f = some i ∧ n.index.get parent name = some i

/-- **What keeps the index right.**  The guest renames a name that it knows, does not exchange
names, and the names do not lead to the same file. -/
def CarefulRename (n : GuestNames F) : Request → Prop
  | .rename olddir oldname newdir newname flags =>
    flags &&& RENAME_EXCHANGE = 0 ∧ (olddir, oldname) ∈ n.known ∧
      ∀ d d', n.inode d = some olddir → n.inode d' = some newdir →
        n.entry (d, oldname) ≠ n.entry (d', newname)
  | _ => True

/-! ## 3. The index is told what `PassthroughFs` tells it -/

omit [DecidableEq F] in
theorem foldl_forgotten_index : ∀ (gone : List Inode) (n : GuestNames F),
    (gone.foldl GuestNames.forgotten n).index =
      (gone.map DentryOp.forget).foldl DentryIndex.apply n.index
  | [], _ => rfl
  | i :: gone, n => foldl_forgotten_index gone (n.forgotten i)

/-- A reply with a given inode. -/
def entryReply (i : Inode) : Reply :=
  .entry ⟨i, 0, ⟨0, 0, 0, 0, 0, 0, 0, 0, 0, 0, 0, 0, 0, 0, 0, 0⟩, 0, 0⟩

theorem indexOps_lookedUp {r : Request} {parent : Inode} {name : Name} (i : Inode)
    (hr : r.looksUp = some (parent, name)) :
    IndexOps r (entryReply i) [.insert parent name i] := by
  cases r <;> first | exact ⟨_, _, _, hr, rfl, rfl⟩ | cases hr

/-- **What a step does to the index is what the request tells it**, with some reply. -/
theorem NameStep.indexOps {n n' : GuestNames F} {r : Request} (h : NameStep n r n') :
    ∃ reply ops, IndexOps r reply ops ∧ n'.index = ops.foldl DentryIndex.apply n.index := by
  cases h with
  | @find _ parent name d f hr | @make _ parent name d f hr =>
    have hlooksUp : r.looksUp = some (parent, name) := by cases r <;> first | exact hr | cases hr
    exact ⟨_, _, indexOps_lookedUp (n.found f) hlooksUp, rfl⟩
  | link inode newparent newname d f hf hd hfree =>
    exact ⟨_, _, indexOps_lookedUp (n.found f) rfl, rfl⟩
  | @remove _ parent name d hr hd hf =>
    refine ⟨.done, [.remove parent name], ?_, rfl⟩
    cases r <;> first | (cases hr; rfl) | cases hr
  | rename olddir oldname newdir newname flags d d' whiteout entry hd hd' hw h =>
    exact ⟨.done, [.rename olddir oldname newdir newname], rfl, rfl⟩
  | @forget _ gone h hr =>
    refine ⟨.done, gone.map .forget, ?_, foldl_forgotten_index gone n⟩
    cases r with
    | forget inode count => exact h.map _
    | batchForget requests =>
      have hmap := h.map DentryOp.forget
      rwa [Request.forgottenInodes, List.map_map] at hmap
    | _ => exact absurd rfl hr
  | file request => exact ⟨.done, [], rfl, rfl⟩

/-! ## 4. One request -/

namespace GuestNames

variable {n : GuestNames F} {parent : Inode} {name : Name} {d f : F} {i : Inode}

/-- **The index shows the names the guest knows**, but for those in `S`.  Numbers are not
used twice. -/
structure Coherent (n : GuestNames F) (S : Set (Inode × Name)) : Prop where
  inj : ∀ {f g : F} {i : Inode}, n.inode f = some i → n.inode g = some i → f = g
  fresh : ∀ {f : F} {i : Inode}, n.inode f = some i → i < n.next
  known_lt : ∀ k ∈ n.known, k.1 < n.next
  consistent : n.index.Consistent
  shows : ∀ k ∈ n.known, k ∉ S → ∀ d, n.inode d = some k.1 → n.Shows d k.1 k.2

theorem of_start_inode {entry : F × Name → Option F} {root : F}
    (h : (start entry root).inode f = some i) : f = root ∧ i = ROOT_ID := by
  unfold start at h
  dsimp only at h
  by_cases hf : f = root
  · rw [hf, update_self] at h
    exact ⟨hf, (Option.some.inj h).symm⟩
  · rw [update_of_ne hf] at h
    cases h

omit [DecidableEq F] in
theorem Coherent.weaken (h : n.Coherent ∅) (S : Set (Inode × Name)) : n.Coherent S :=
  ⟨h.inj, h.fresh, h.known_lt, h.consistent, fun k hk _ => h.shows k hk (Set.notMem_empty k)⟩

theorem coherent_start (entry : F × Name → Option F) (root : F) :
    (start entry root).Coherent ∅ where
  inj hf hg := (of_start_inode hf).1.trans (of_start_inode hg).1.symm
  fresh h := (of_start_inode h).2 ▸ Nat.lt_succ_self _
  known_lt _ h := absurd h (Set.notMem_empty _)
  consistent := DentryIndex.Consistent.empty
  shows _ h := absurd h (Set.notMem_empty _)

/-- Another entry in a directory concerns one name of the guest. -/
theorem Coherent.withEntry (h : n.Coherent ∅) (hd : n.inode d = some parent) (x : Option F) :
    (n.withEntry (d, name) x).Coherent {(parent, name)} where
  inj := h.inj
  fresh := h.fresh
  known_lt := h.known_lt
  consistent := h.consistent
  shows k hk hne d' hd' := by
    have hother : (d', k.2) ≠ (d, name) := by
      intro heq
      obtain ⟨rfl, hname⟩ := Prod.mk.inj heq
      exact hne (Prod.ext (Option.some.inj (hd'.symm.trans hd)) hname)
    have hentry : (n.withEntry (d, name) x).entry (d', k.2) = n.entry (d', k.2) :=
      update_of_ne hother _ _
    have hshows := h.shows k hk (Set.notMem_empty k) d' hd'
    unfold Shows at hshows ⊢
    rwa [hentry]

omit [DecidableEq F] in
theorem found_of_some (h : n.inode f = some i) : n.found f = i := by
  rw [found, h]
  rfl

/-- What a lookup does to the inodes. -/
theorem lookedUp_inode {g : F} :
    (n.lookedUp parent name f).inode g = if g = f then some (n.found f) else n.inode g := by
  unfold lookedUp
  dsimp only
  by_cases hg : g = f
  · rw [hg, update_self, if_pos rfl]
  · rw [update_of_ne hg, if_neg hg]

/-- The inodes there were stay. -/
theorem lookedUp_inode_of_some {g : F} (h : n.inode g = some i) :
    (n.lookedUp parent name f).inode g = some i := by
  rw [lookedUp_inode]
  split
  · rename_i hg
    rw [← hg, found_of_some h]
  · exact h

/-- An inode is one of those there were, or the new one. -/
theorem of_lookedUp_inode {g : F} (h : (n.lookedUp parent name f).inode g = some i) :
    n.inode g = some i ∨ g = f ∧ n.inode f = none ∧ i = n.next := by
  rw [lookedUp_inode] at h
  split at h
  · rename_i hg
    cases hf : n.inode f with
    | some j =>
      rw [found_of_some hf] at h
      exact .inl (by rw [hg, hf, h])
    | none =>
      rw [found, hf] at h
      exact .inr ⟨hg, rfl, (Option.some.inj h).symm⟩
  · exact .inl h

theorem le_lookedUp_next : n.next ≤ (n.lookedUp parent name f).next := by
  dsimp only [lookedUp]
  split <;> omega

/-- **A lookup** shows the name that was looked up. -/
theorem Coherent.lookedUp (h : n.Coherent {(parent, name)}) (hd : n.inode d = some parent)
    (hf : n.entry (d, name) = some f) : (n.lookedUp parent name f).Coherent ∅ where
  inj {g g' j} hg hg' := by
    rcases of_lookedUp_inode hg with hold | ⟨hgf, -, hj⟩
    · rcases of_lookedUp_inode hg' with hold' | ⟨-, -, hj⟩
      · exact h.inj hold hold'
      · exact absurd hj (h.fresh hold).ne
    · rcases of_lookedUp_inode hg' with hold' | ⟨hgf', -, -⟩
      · exact absurd hj (h.fresh hold').ne
      · exact hgf.trans hgf'.symm
  fresh {g j} hg := by
    rcases of_lookedUp_inode hg with hg | ⟨-, hnone, rfl⟩
    · exact lt_of_lt_of_le (h.fresh hg) le_lookedUp_next
    · dsimp only [GuestNames.lookedUp]
      rw [hnone]
      exact Nat.lt_succ_self _
  known_lt k hk := by
    rcases hk with rfl | hk
    · exact lt_of_lt_of_le (h.fresh hd) le_lookedUp_next
    · exact lt_of_lt_of_le (h.known_lt k hk) le_lookedUp_next
  consistent := h.consistent.apply (.insert parent name (n.found f))
  shows k hk _ d' hd' := by
    have hlt : k.1 < n.next := by
      rcases hk with rfl | hk
      · exact h.fresh hd
      · exact h.known_lt k hk
    have hd'old : n.inode d' = some k.1 := by
      rcases of_lookedUp_inode hd' with hold | ⟨-, -, hnew⟩
      · exact hold
      · exact absurd hnew hlt.ne
    have hget : (n.lookedUp parent name f).index.get k.1 k.2 =
        update n.index.view (parent, name) (some (n.found f)) k :=
      congrFun (DentryIndex.view_insert n.index parent name (n.found f)) k
    by_cases hkey : k = (parent, name)
    · subst hkey
      obtain rfl : d' = d := h.inj hd'old hd
      refine .inr ⟨f, n.found f, hf, ?_, ?_⟩
      · rw [lookedUp_inode, if_pos rfl]
      · rw [hget, update_self]
    · have hknown : k ∈ n.known := hk.resolve_left hkey
      unfold Shows
      rw [hget, update_of_ne hkey]
      rcases h.shows k hknown hkey d' hd'old with ⟨hnone, hview⟩ | ⟨g, j, hg, hj, hview⟩
      · exact .inl ⟨hnone, hview⟩
      · exact .inr ⟨g, j, hg, lookedUp_inode_of_some hj, hview⟩

/-- **A name that is removed** is not shown any more. -/
theorem Coherent.removed (h : n.Coherent ∅) (hd : n.inode d = some parent) :
    (n.removed d parent name).Coherent ∅ where
  inj := h.inj
  fresh := h.fresh
  known_lt := h.known_lt
  consistent := h.consistent.apply (.remove parent name)
  shows k hk _ d' hd' := by
    have hget : (n.removed d parent name).index.get k.1 k.2 =
        update n.index.view (parent, name) none k :=
      congrFun (DentryIndex.view_remove n.index parent name) k
    by_cases hkey : k = (parent, name)
    · subst hkey
      obtain rfl : d' = d := h.inj hd' hd
      refine .inl ⟨update_self _ _ _, ?_⟩
      rw [hget, update_self]
    · have hother : (n.withEntry (d, name) none).Coherent {(parent, name)} := h.withEntry hd none
      have hshows := hother.shows k hk hkey d' hd'
      unfold Shows at hshows ⊢
      rw [hget, update_of_ne hkey]
      exact hshows

/-- **A name that moves** is shown in its new place, if the guest knew it. -/
theorem Coherent.renamed {d' : F} {flags : UInt32} {x : Option F} (h : n.Coherent ∅)
    (old new : Inode × Name) (hd : n.inode d = some old.1) (hd' : n.inode d' = some new.1)
    (hknown : old ∈ n.known) (hold : n.entry (d, old.2) = some f)
    (hnew : n.entry (d', new.2) ≠ some f) (hx : flags &&& RENAME_WHITEOUT = 0 → x = none) :
    (n.renamed (update (update n.entry (d, old.2) x) (d', new.2) (some f))
      old new flags).Coherent ∅ where
  inj := h.inj
  fresh := h.fresh
  known_lt k hk := by
    rcases hk with ⟨rfl, -⟩ | ⟨hk, -⟩
    · exact h.fresh hd'
    · exact h.known_lt k hk
  consistent := h.consistent.apply (.rename old.1 old.2 new.1 new.2)
  shows k hk _ e he := by
    have hdistinct : old ≠ new := by
      rintro rfl
      obtain rfl : d = d' := h.inj hd hd'
      exact hnew hold
    -- The place of a name of the guest on the host.
    have hplace : ∀ {k' : Inode × Name} {e' : F}, n.inode e' = some k'.1 → k ≠ k' →
        (e, k.2) ≠ (e', k'.2) := by
      intro k' e' he' hne heq
      obtain ⟨rfl, hname⟩ := Prod.mk.inj heq
      exact hne (Prod.ext (Option.some.inj (he.symm.trans he')) hname)
    obtain ⟨i, hi, hview⟩ : ∃ i, n.inode f = some i ∧ n.index.get old.1 old.2 = some i := by
      rcases h.shows old hknown (Set.notMem_empty _) d hd with ⟨hnone, -⟩ | ⟨g, i, hg, hi, hview⟩
      · cases hold.symm.trans hnone
      · obtain rfl : f = g := Option.some.inj (hold.symm.trans hg)
        exact ⟨i, hi, hview⟩
    have hget : (n.index.apply (.rename old.1 old.2 new.1 new.2)).get k.1 k.2 =
        update (update n.index.view old none) new (n.index.view old) k := by
      refine (congrFun (DentryIndex.view_rename n.index old.1 old.2 new.1 new.2) k).trans ?_
      rw [DentryIndex.movedView, if_neg hdistinct]
    unfold Shows
    dsimp only [GuestNames.renamed]
    rw [hget]
    by_cases hkn : k = new
    · subst hkn
      obtain rfl : e = d' := h.inj he hd'
      rw [update_self, update_self]
      exact .inr ⟨f, i, rfl, hi, hview⟩
    · have hk' := hk.resolve_left fun h => hkn h.1
      rw [update_of_ne hkn, update_of_ne (hplace hd' hkn)]
      by_cases hko : k = old
      · subst hko
        obtain rfl : e = d := h.inj he hd
        have hflags : flags &&& RENAME_WHITEOUT = 0 := by
          by_contra hne
          exact hk'.2 ⟨rfl, hne⟩
        rw [update_self, update_self, hx hflags]
        exact .inl ⟨rfl, rfl⟩
      · rw [update_of_ne hko, update_of_ne (hplace hd hko)]
        exact h.shows k hk'.1 (Set.notMem_empty _) e he

omit [DecidableEq F] in
/-- **An inode that is forgotten** takes its names with it. -/
theorem Coherent.forgotten (h : n.Coherent ∅) (i : Inode) : (n.forgotten i).Coherent ∅ := by
  have hinode : ∀ {f : F} {j : Inode}, (n.forgotten i).inode f = some j →
      n.inode f = some j := by
    intro f j hj
    dsimp only [GuestNames.forgotten] at hj
    split at hj
    · cases hj
    · exact hj
  refine ⟨fun hf hg => h.inj (hinode hf) (hinode hg), fun hf => h.fresh (hinode hf),
    fun k hk => h.known_lt k hk.1, h.consistent.apply (.forget i), fun k hk _ d hd => ?_⟩
  have hget : (n.forgotten i).index.get k.1 k.2 =
      if n.index.view k = some i then none else n.index.view k :=
    congrFun (h.consistent.view_forgetInode i) k
  unfold Shows
  rw [hget]
  rcases h.shows k hk.1 (Set.notMem_empty _) d (hinode hd) with
    ⟨hnone, hview⟩ | ⟨f, j, hf, hj, hview⟩
  · refine .inl ⟨hnone, ?_⟩
    split
    · rfl
    · exact hview
  · have hne : n.inode f ≠ some i := hk.2 d f (hinode hd) hf
    have hview' : n.index.view k ≠ some i := fun heq => hne (hj.trans (hview.symm.trans heq))
    refine .inr ⟨f, j, hf, ?_, ?_⟩
    · exact (if_neg hne).trans hj
    · rw [if_neg hview']
      exact hview

omit [DecidableEq F] in
theorem Coherent.foldl_forgotten : ∀ (gone : List Inode) {n : GuestNames F}, n.Coherent ∅ →
    (gone.foldl GuestNames.forgotten n).Coherent ∅
  | [], _, h => h
  | i :: gone, _, h => foldl_forgotten gone (h.forgotten i)

/-! ## 5. Runs -/

/-- **One request.** -/
theorem Coherent.step {n' : GuestNames F} {r : Request} (h : n.Coherent ∅)
    (hcareful : CarefulRename n r) (hs : NameStep n r n') : n'.Coherent ∅ := by
  cases hs with
  | find d f hr hd hf =>
    exact (h.weaken _).lookedUp hd hf
  | make d f hr hd hfree hf => exact (h.withEntry hd _).lookedUp hd (update_self _ _ _)
  | link inode newparent newname d f hf hd hfree =>
    exact (h.withEntry hd _).lookedUp hd (update_self _ _ _)
  | remove d hr hd hf => exact h.removed hd
  | rename olddir oldname newdir newname flags d d' whiteout entry hd hd' hw hrenamed =>
    obtain ⟨hexchange, hknown, hdistinct⟩ := hcareful
    cases hrenamed with
    | same f hold hnew hflags => exact absurd (hold.trans hnew.symm) (hdistinct d d' hd hd')
    | exchange f g hold hnew hflags => exact absurd hexchange hflags
    | move f hold hnew hflags hfree =>
      exact h.renamed (olddir, oldname) (newdir, newname) hd hd' hknown hold hnew fun h => if_pos h
  | forget gone hgone hr => exact foldl_forgotten gone h
  | file request => exact h

theorem Coherent.run {n' : GuestNames F} {rs : List Request} (h : n.Coherent ∅)
    (hrun : NameRun CarefulRename n rs n') : n'.Coherent ∅ := by
  induction hrun with
  | nil n => exact h
  | cons hr hs _ ih => exact ih (h.step hr hs)

/-- **The index follows the names the guest knows**, as long as no rename is one that the index
does not understand: a name is in the index exactly if it exists, with the inode of the file it
leads to. -/
theorem index_follows_names (entry : F × Name → Option F) (root : F) (rs : List Request)
    (n : GuestNames F) (hrun : NameRun CarefulRename (start entry root) rs n)
    (parent : Inode) (name : Name) (d : F) (hd : n.inode d = some parent)
    (hknown : (parent, name) ∈ n.known) :
    ((n.index.get parent name).isSome ↔ (n.entry (d, name)).isSome) ∧
      ∀ f, n.entry (d, name) = some f → (n.inode f).isSome ∧
        n.index.get parent name = n.inode f := by
  have h := (coherent_start entry root).run hrun
  rcases h.shows _ hknown (Set.notMem_empty _) d hd with ⟨hnone, hget⟩ | ⟨f, i, hf, hi, hget⟩
  · rw [hnone, hget]
    exact ⟨Iff.rfl, nofun⟩
  · rw [hf, hget]
    refine ⟨Iff.rfl, fun g hg => ?_⟩
    cases hg
    rw [hi]
    exact ⟨rfl, rfl⟩

end GuestNames

end

/-- A directory with the files `a` and `b`. -/
def twoFiles (k : Nat × Name) : Option Nat :=
  if k = (0, [0x61]) then some 1 else if k = (0, [0x62]) then some 2 else none

open GuestNames in
/-- A name that is renamed to itself, and a name that is exchanged with another one: both are
lost, though they exist. -/
theorem index_loses_names :
    (∃ n, NameRun (fun _ _ => True) (start twoFiles 0)
        [.lookup 1 [0x61], .rename 1 [0x61] 1 [0x61] 0] n ∧
      n.inode 0 = some 1 ∧ (1, [0x61]) ∈ n.known ∧ n.entry (0, [0x61]) = some 1 ∧
      n.inode 1 = some 2 ∧ n.index.get 1 [0x61] = none) ∧
    (∃ n, NameRun (fun _ _ => True) (start twoFiles 0)
        [.lookup 1 [0x61], .lookup 1 [0x62], .rename 1 [0x61] 1 [0x62] RENAME_EXCHANGE] n ∧
      n.inode 0 = some 1 ∧ (1, [0x61]) ∈ n.known ∧ n.entry (0, [0x61]) = some 2 ∧
      n.inode 2 = some 3 ∧ n.index.get 1 [0x61] = none) := by
  constructor
  · refine ⟨_, .cons trivial (.find 0 1 rfl rfl rfl) (.cons trivial (.rename 1 [0x61] 1 [0x61] 0
      0 0 0 _ rfl rfl (absurd (by decide)) (.same 1 rfl rfl rfl)) (.nil _)), rfl, ?_, rfl, rfl,
      by decide⟩
    exact .inl ⟨rfl, Set.mem_insert _ _⟩
  · refine ⟨_, .cons trivial (.find 0 1 rfl rfl rfl) (.cons trivial (.find 0 2 rfl rfl rfl)
      (.cons trivial (.rename 1 [0x61] 1 [0x62] RENAME_EXCHANGE 0 0 0 _ rfl rfl
        (absurd (by decide)) (.exchange 1 2 rfl rfl (by decide))) (.nil _))), rfl, ?_, rfl, rfl,
      by decide⟩
    exact .inr ⟨Set.mem_insert_of_mem _ (Set.mem_insert _ _), fun h => h.2 rfl⟩

open GuestNames in
/-- `a` becomes `b`. -/
theorem index_follows_names_move :
    ∃ n, NameRun CarefulRename (start twoFiles 0)
        [.lookup 1 [0x61], .rename 1 [0x61] 1 [0x62] 0] n ∧
      ((n.index.get 1 [0x62]).isSome ↔ (n.entry (0, [0x62])).isSome) ∧
        ∀ f, n.entry (0, [0x62]) = some f → (n.inode f).isSome ∧
          n.index.get 1 [0x62] = n.inode f := by
  have hcareful : CarefulRename ((start twoFiles 0).lookedUp 1 [0x61] 1)
      (.rename 1 [0x61] 1 [0x62] 0) := by
    refine ⟨rfl, Set.mem_insert _ _, fun d d' hd hd' => ?_⟩
    have hroot : ∀ {e : Nat}, ((start twoFiles 0).lookedUp 1 [0x61] 1).inode e = some 1 →
        e = 0 := by
      intro e he
      rcases of_lookedUp_inode he with he | ⟨-, -, he⟩
      · exact (of_start_inode he).1
      · cases he
    rw [hroot hd, hroot hd']
    decide
  have hrun : NameRun CarefulRename (start twoFiles 0)
      [.lookup 1 [0x61], .rename 1 [0x61] 1 [0x62] 0] _ :=
    .cons trivial (.find 0 1 rfl rfl rfl) (.cons hcareful (.rename 1 [0x61]
      1 [0x62] 0 0 0 0 _ rfl rfl (absurd (by decide)) (.move 1 rfl (by decide) rfl
        (absurd (by decide)))) (.nil _))
  exact ⟨_, hrun, index_follows_names twoFiles 0 _ _ hrun 1 [0x62] 0 rfl
    (.inl ⟨rfl, Set.mem_insert _ _⟩)⟩

end Virtiofsd
