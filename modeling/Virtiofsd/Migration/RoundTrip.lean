/-
  # Refcounts survive a migration

  On the source, the refcount of an inode is the number of lookups the guest holds plus the
  number of inodes whose location is a path below it.  While the destination restores the
  inodes, in any order and whatever fails to open, `LoopInv` holds:

    an inode that has been restored has the lookups the guest holds, and one reference for
    each inode below it that is STILL TO BE RESTORED.

  So no parent is removed before its last child has been restored, and at the end only what
  the guest holds is left.  Inodes whose parents lead nowhere are never restored: the loop
  ends with an error then.
-/
import Virtiofsd.Migration.Restore
import Virtiofsd.Passthrough.Ledger
import Mathlib.Logic.Relation

namespace Virtiofsd

open Lib SerializedInode List Prog

/-! ## 1. The table of the source -/

/-- The inode below which an inode is to be found. -/
def SerializedInode.parent (n : SerializedInode) : Option Inode :=
  match n.location with
  | .path parent _ => some parent
  | _ => none

/-- How many of the inodes have their location below `i`. -/
def pathChildren (inodes : List SerializedInode) (i : Inode) : Nat :=
  (inodes.filterMap SerializedInode.parent).count i

/-- **A table of inodes as a source sends it.**  `held` are the lookups of the guest. -/
structure SourceTable (table : List SerializedInode) (held : Inode → Nat) : Prop where
  nodup : (table.map SerializedInode.id).Nodup
  fromSource : ∀ n ∈ table, n.FromSource
  refcount : ∀ n ∈ table, n.refcount = held n.id + pathChildren table n.id
  /-- An inode with no references is not in the store of the source. -/
  positive : ∀ n ∈ table, 0 < n.refcount

/-- **The parent links lead somewhere**: to an inode that is not found by a path, such as the
root. -/
inductive Grounded (table : List SerializedInode) : Inode → Prop where
  | base {n : SerializedInode} (hn : n ∈ table) (hp : n.parent = none) : Grounded table n.id
  | child {n : SerializedInode} {p : Inode} (hn : n ∈ table) (hp : n.parent = some p)
      (h : Grounded table p) : Grounded table n.id

/-- `c` is to be found below `p`. -/
def ParentOf (table : List SerializedInode) (c p : Inode) : Prop :=
  ∃ n ∈ table, n.id = c ∧ n.parent = some p

/-- **The parent links are dangling or cyclic.** -/
def Broken (table : List SerializedInode) : Prop :=
  (∃ c p, ParentOf table c p ∧ p ∉ table.map SerializedInode.id) ∨
    ∃ i, Relation.TransGen (ParentOf table) i i

variable {table : List SerializedInode} {held : Inode → Nat} {n m : SerializedInode}
  {i p : Inode} {pending rest done : List SerializedInode}

theorem SourceTable.eq_of_id (h : SourceTable table held) (hn : n ∈ table) (hm : m ∈ table)
    (hid : n.id = m.id) : n = m :=
  inj_on_of_nodup_map h.nodup hn hm hid

theorem Grounded.mem (h : Grounded table i) : i ∈ table.map SerializedInode.id := by
  cases h with
  | base hn | child hn => exact mem_map_of_mem hn

/-- Following the parent links of a grounded inode comes to an end. -/
theorem Grounded.acc (ht : SourceTable table held) (h : Grounded table i) :
    Acc (Function.swap (ParentOf table)) i := by
  induction h with
  | base hn hp =>
    refine Acc.intro _ ?_
    rintro q ⟨m, hm, hid, hq⟩
    obtain rfl := ht.eq_of_id hm hn hid
    rw [hp] at hq
    cases hq
  | child hn hp _ ih =>
    refine Acc.intro _ ?_
    rintro q ⟨m, hm, hid, hq⟩
    obtain rfl := ht.eq_of_id hm hn hid
    rw [hp] at hq
    cases hq
    exact ih

theorem Broken.not_grounded (ht : SourceTable table held) (h : Broken table) :
    ∃ n ∈ table, ¬ Grounded table n.id := by
  rcases h with ⟨c, p, ⟨n, hn, rfl, hp⟩, hdangling⟩ | ⟨i, hcycle⟩
  · refine ⟨n, hn, fun hg => hdangling ?_⟩
    generalize hc : n.id = c at hg
    cases hg with
    | base hm hpm =>
      obtain rfl := ht.eq_of_id hn hm hc
      rw [hp] at hpm
      cases hpm
    | child hm hpm hgp =>
      obtain rfl := ht.eq_of_id hn hm hc
      rw [hp] at hpm
      cases hpm
      exact hgp.mem
  · obtain ⟨n, hn, rfl⟩ : ∃ n ∈ table, n.id = i := by
      rcases Relation.TransGen.head'_iff.mp hcycle with ⟨j, ⟨n, hn, hid, -⟩, -⟩
      exact ⟨n, hn, hid⟩
    refine ⟨n, hn, fun hg => ?_⟩
    have hacc : Acc (Relation.TransGen (Function.swap (ParentOf table))) n.id :=
      (hg.acc ht).transGen
    have hswap : Relation.TransGen (Function.swap (ParentOf table)) n.id n.id :=
      Relation.transGen_swap.mpr hcycle
    generalize n.id = i at hacc hswap
    induction hacc with
    | intro i _ ih => exact ih i hswap hswap

/-! ## 2. Counting children -/

theorem pathChildren_cons (n : SerializedInode) (rest : List SerializedInode) (i : Inode) :
    pathChildren (n :: rest) i = pathChildren rest i + if n.parent = some i then 1 else 0 := by
  unfold pathChildren
  cases hp : n.parent with
  | none => simp [hp]
  | some p =>
    rw [filterMap_cons_some hp, count_cons]
    by_cases hpi : p = i <;> simp [hpi]

theorem pathChildren_perm (h : table.Perm rest) (i : Inode) :
    pathChildren table i = pathChildren rest i :=
  (h.filterMap _).count_eq i

theorem pathChildren_append (done rest : List SerializedInode) (i : Inode) :
    pathChildren (done ++ rest) i = pathChildren done i + pathChildren rest i := by
  simp [pathChildren]

theorem pathChildren_eq_zero (h : ∀ n ∈ rest, n.parent ≠ some i) : pathChildren rest i = 0 := by
  refine count_eq_zero.mpr fun hmem => ?_
  obtain ⟨n, hn, hp⟩ := mem_filterMap.mp hmem
  exact h n hn hp

/-! ## 3. What holds while the inodes are restored -/

/-- **The invariant of the loop.**  `done` are the inodes that have been restored, `own` is
what the store counts. -/
structure LoopInv (table : List SerializedInode) (held : Inode → Nat)
    (done : List SerializedInode) (own : Multiset Inode) (pending : List SerializedInode)
    (w : World) : Prop where
  perm : table.Perm (done ++ pending)
  owned : w.fs.inodes.Owned (guestRefs own)
  /-- What an inode still needs: the guest's lookups, and one reference for every child that
  has not been restored yet. -/
  count : ∀ i, own.count i =
    if i ∈ done.map SerializedInode.id then held i + pathChildren pending i else 0
  /-- Parents are restored before their children. -/
  closed : ∀ n ∈ done, ∀ p, n.parent = some p → p ∈ done.map SerializedInode.id
  grounded : ∀ n ∈ done, Grounded table n.id
  /-- No migration info refers to a parent. -/
  noParents : ∀ c ∈ w.fs.inodes.cells, infoParent c.migrationInfo = none

namespace LoopInv

variable {own : Multiset Inode} {w w' : World}

theorem start (table : List SerializedInode) (held : Inode → Nat)
    (hw : w.fs.inodes = InodeStoreInner.empty) : LoopInv table held [] 0 table w where
  perm := Perm.refl _
  owned := by
    rw [hw]
    exact InodeStoreInner.Owned.empty
  count i := by simp
  closed n hn := by simp at hn
  grounded n hn := by simp at hn
  noParents c hc := by simp [hw, InodeStoreInner.empty] at hc

section

variable (h : LoopInv table held done own pending w)

include h

theorem mem_table (hn : n ∈ pending) : n ∈ table :=
  h.perm.mem_iff.mpr (mem_append_right _ hn)

theorem strongRefs_eq :
    w.fs.inodes.strongRefs = 0 := by
  refine sum_eq_zero fun refs hrefs => ?_
  obtain ⟨c, hc, rfl⟩ := mem_map.mp hrefs
  rw [infoRefs_eq_infoParent, h.noParents c hc]

/-- The refcounts of the store. -/
theorem refcount_eq (i : Inode) :
    w.fs.inodes.refcount i = own.count i := by
  have hb := h.owned.balanced
  rw [map_inode_guestRefs] at hb
  rw [hb.refcount_eq, h.strongRefs_eq, add_zero]

/-- The inodes of the store. -/
theorem contains_iff (i : Inode) :
    w.fs.inodes.contains i = true ↔ 0 < own.count i := by
  have hb := h.owned.balanced
  rw [map_inode_guestRefs] at hb
  unfold InodeStoreInner.contains
  cases hl : w.fs.inodes.data.lookup i with
  | none =>
    have hzero := hb.gone i hl
    rw [h.strongRefs_eq, add_zero] at hzero
    simp [hzero]
  | some a =>
    obtain ⟨c, -, -, hpos, hcount⟩ := hb.cell i a hl
    rw [h.strongRefs_eq, add_zero] at hcount
    rw [← hcount]
    simpa using hpos

theorem get_of_count (hi : 0 < own.count i) :
    ∃ r, w.fs.inodes.get i = some r := by
  have hb := h.owned.balanced
  rw [map_inode_guestRefs] at hb
  obtain ⟨r, hr, -⟩ := hb.get_of_mem (Multiset.count_pos.mp hi)
  exact ⟨r, hr⟩

/-- Only inodes that have been restored are in the store. -/
theorem mem_done_of_get {r : InodeRef} (hr : w.fs.inodes.get i = some r) :
    i ∈ done.map SerializedInode.id := by
  have hcontains : w.fs.inodes.contains i = true := by
    unfold InodeStoreInner.contains
    rw [(InodeStoreInner.get_eq_some.mp hr).1]
    rfl
  have hpos := (h.contains_iff i).mp hcontains
  rw [h.count i] at hpos
  by_contra hnot
  simp [hnot] at hpos

/-- An inode that is still to be restored has not been restored. -/
theorem not_mem_done (ht : SourceTable table held) (hn : n ∈ pending) :
    n.id ∉ done.map SerializedInode.id := by
  have hnodup : (done.map SerializedInode.id ++ pending.map SerializedInode.id).Nodup := by
    rw [← map_append]
    exact (h.perm.map _).nodup_iff.mp ht.nodup
  intro hmem
  exact (nodup_append.mp hnodup).2.2 _ hmem _ (mem_map_of_mem hn) rfl

/-- **No parent is removed before its last child has been restored.** -/
theorem contains_parent (hn : n ∈ pending) (hp : n.parent = some p)
    (hdone : p ∈ done.map SerializedInode.id) : 0 < own.count p := by
  have hchild : 0 < pathChildren pending p :=
    count_pos_iff.mpr (mem_filterMap.mpr ⟨n, hn, hp⟩)
  rw [h.count p, if_pos hdone]
  omega

/-- The id of an inode that is to be restored is not taken. -/
theorem base_contains (ht : SourceTable table held) (hn : n ∈ pending) :
    (n.base w.fs.inodes).contains n.id = false := by
  have hfree : w.fs.inodes.contains n.id = false := by
    rw [Bool.eq_false_iff]
    intro hc
    have hpos := (h.contains_iff n.id).mp hc
    rw [h.count, if_neg (h.not_mem_done ht hn)] at hpos
    omega
  unfold base
  split
  · rename_i parent _ _
    have hkept := ((InodeStoreInner.Edits.refl (s := w.fs.inodes)).forgetOne parent 1).kept
    unfold InodeStoreInner.contains at hfree ⊢
    cases hl : (w.fs.inodes.forgetOne parent 1).data.lookup n.id with
    | none => rfl
    | some a =>
      rw [hkept.lookup _ _ hl] at hfree
      simp at hfree
  · exact hfree

/-- The reference to the parent is given back. -/
theorem base_owned (hn : n ∈ pending)
    (hp : ∀ p, n.parent = some p → p ∈ done.map SerializedInode.id) :
    ∃ own₁ : Multiset Inode, (n.base w.fs.inodes).Owned (guestRefs own₁) ∧
      ∀ i, own.count i = own₁.count i + if n.parent = some i then 1 else 0 := by
  cases hl : n.location with
  | path p filename =>
    have hparent : n.parent = some p := by simp [SerializedInode.parent, hl]
    have hpos := h.contains_parent hn hparent (hp p hparent)
    obtain ⟨own₁, rfl⟩ := Multiset.exists_cons_of_mem (Multiset.count_pos.mp hpos)
    refine ⟨own₁, ?_, fun i => ?_⟩
    · have howned : w.fs.inodes.Owned (guestRefs own₁ + Multiset.replicate 1 (.guest p)) := by
        have := h.owned
        rwa [guestRefs, Multiset.map_cons, ← Multiset.singleton_add, add_comm] at this
      simpa [base, hl] using howned.forgetOne
    · rw [Multiset.count_cons, hparent]
      by_cases hpi : p = i
      · simp [hpi]
      · simp [hpi, Ne.symm hpi]
  | _ =>
    exact ⟨own, by simpa [base, hl] using h.owned,
      fun i => by simp [SerializedInode.parent, hl]⟩

theorem base_noParents (n : SerializedInode) :
    ∀ c ∈ (n.base w.fs.inodes).cells, infoParent c.migrationInfo = none := by
  unfold base
  split
  · intro c hc
    obtain ⟨a, ha⟩ := List.getElem?_of_mem hc
    rcases (InodeStoreInner.Edits.refl.forgetOne _ 1).kept.info a c ha with hnone | ⟨d, hd, hinfo⟩
    · rw [hnone]
      rfl
    · rw [hinfo]
      exact h.noParents d (mem_of_getElem? hd)
  · exact h.noParents

/-- What the refcount of the source is made of, once the parent has been restored. -/
theorem refcount_of_source (ht : SourceTable table held) (hperm : pending.Perm (n :: rest))
    (hp : ∀ p, n.parent = some p → p ∈ done.map SerializedInode.id) :
    n.refcount = held n.id + pathChildren rest n.id := by
  have hn : n ∈ pending := hperm.mem_iff.mpr mem_cons_self
  have hnot := h.not_mem_done ht hn
  have hdone : pathChildren done n.id = 0 :=
    pathChildren_eq_zero fun m hm hpm => hnot (h.closed m hm _ hpm)
  have hself : n.parent ≠ some n.id := fun hpn => hnot (hp _ hpn)
  rw [ht.refcount n (h.mem_table hn), pathChildren_perm h.perm, pathChildren_append, hdone,
    pathChildren_perm hperm, pathChildren_cons, if_neg hself]
  omega

/-- **An inode has been restored.** -/
theorem restored (ht : SourceTable table held) (hperm : pending.Perm (n :: rest))
    (hp : ∀ p, n.parent = some p → p ∈ done.map SerializedInode.id) {d : InodeData}
    {info : Option InodeMigrationInfo} (hd : d.inode = n.id) (hinfo : infoTokens info = 0)
    (hs : w'.fs.inodes = ((n.base w.fs.inodes).insertNew ⟨d, n.refcount, info⟩).2) :
    ∃ own', LoopInv table held (n :: done) own' rest w' := by
  have hn : n ∈ pending := hperm.mem_iff.mpr mem_cons_self
  have hnot := h.not_mem_done ht hn
  obtain ⟨own₁, howned, hcount⟩ := h.base_owned hn hp
  refine ⟨own₁ + Multiset.replicate n.refcount n.id, ?_, ?_, ?_, ?_, ?_, ?_⟩
  · exact (h.perm.trans (hperm.append_left done)).trans perm_middle
  · have hpos : 0 < n.refcount := ht.positive n (h.mem_table hn)
    have hfree : (n.base w.fs.inodes).contains d.inode = false := by
      rw [hd]
      exact h.base_contains ht hn
    rw [hs]
    have hnew := howned.newInode (c := ⟨d, n.refcount, info⟩) hinfo hpos
      (newInode_of_not_contains hfree)
    simpa [guestRefs, hd] using hnew
  · intro i
    have hi := hcount i
    rw [h.count i, pathChildren_perm hperm, pathChildren_cons] at hi
    rw [Multiset.count_add, Multiset.count_replicate]
    by_cases hin : n.id = i
    · -- nobody had a reference to the new inode
      subst hin
      rw [if_neg hnot] at hi
      rw [if_pos rfl, if_pos (by simp), ← h.refcount_of_source ht hperm hp]
      omega
    · have hmem : i ∈ (n :: done).map SerializedInode.id ↔ i ∈ done.map SerializedInode.id := by
        simp [Ne.symm hin]
      rw [if_neg hin]
      simp only [hmem]
      split at hi <;> rename_i hdone
      · rw [if_pos hdone]
        omega
      · rw [if_neg hdone]
        omega
  · intro m hm p hpm
    rw [map_cons, mem_cons]
    rcases mem_cons.mp hm with rfl | hm
    · exact .inr (hp p hpm)
    · exact .inr (h.closed m hm p hpm)
  · intro m hm
    rcases mem_cons.mp hm with rfl | hm
    · cases hpm : m.parent with
      | none => exact .base (h.mem_table hn) hpm
      | some p =>
        obtain ⟨k, hk, rfl⟩ := mem_map.mp (hp p hpm)
        exact .child (h.mem_table hn) hpm (h.grounded k hk)
    · exact h.grounded m hm
  · rw [hs]
    intro c hc
    rcases mem_append.mp hc with hc | hc
    · exact h.base_noParents n c hc
    · obtain rfl : c = ⟨d, n.refcount, info⟩ := by simpa using hc
      cases hpi : infoParent info with
      | none => rfl
      | some r => simp [infoTokens, hpi] at hinfo

theorem of_inodes (hs : w'.fs.inodes = w.fs.inodes) : LoopInv table held done own pending w' :=
  ⟨h.perm, hs ▸ h.owned, h.count, h.closed, h.grounded, hs ▸ h.noParents⟩

end

end LoopInv

/-! ## 4. The loop -/

/-- The invariant, whatever has been restored so far. -/
def Restoring (table : List SerializedInode) (held : Inode → Nat)
    (pending : List SerializedInode) (w : World) : Prop :=
  ∃ done own, LoopInv table held done own pending w

theorem SerializedInode.parent_eq_some : n.parent = some p ↔ ∃ f, n.location = .path p f := by
  unfold SerializedInode.parent
  split
  · rename_i q f hl
    rw [hl]
    simp
  · rename_i hl
    simp only [reduceCtorEq, false_iff, not_exists]
    exact hl p

section

variable {cfg : Config} {w w' : World} {own : Multiset Inode}
  (hcfg : cfg.migrationOnError = .guestError) (ht : SourceTable table held)
  (mountFds : List (Nat × Nat))

include hcfg ht

theorem LoopInv.attempt (h : LoopInv table held done own pending w) (hn : n ∈ pending) :
    n.AttemptEnd cfg w ((n.deserializeWithFs cfg mountFds).run World.performSession w) :=
  deserializeWithFs_run hcfg (ht.fromSource n (h.mem_table hn))
    h.owned.wellFormed (h.base_contains ht hn) mountFds

/-- **One attempt keeps the invariant.** -/
theorem restoring_rule : Deferral.Rule World.performSession
    (deserializeWithFs cfg mountFds) (Restoring table held) where
  defer := by
    rintro l w w' n ⟨done, own, h⟩ hn hr
    have hend := h.attempt hcfg ht mountFds hn
    rw [hr] at hend
    cases hend
    rfl
  step := by
    rintro l rest w w' n ⟨done, own, h⟩ hperm hr
    have hend := h.attempt hcfg ht mountFds (hperm.mem_iff.mpr mem_cons_self)
    rw [hr] at hend
    cases hend with
    | restored hp hd hinfo hs =>
      have hparent : ∀ p, n.parent = some p → p ∈ done.map SerializedInode.id := by
        intro p hpn
        obtain ⟨f, hl⟩ := SerializedInode.parent_eq_some.mp hpn
        obtain ⟨r, hget⟩ := hp p f hl
        exact h.mem_done_of_get hget
      obtain ⟨own', h'⟩ := h.restored ht hperm hparent hd hinfo hs
      exact ⟨_, _, h'⟩

/-- An inode is deferred only while its parent has not been restored. -/
theorem LoopInv.parent_of_deferred (h : LoopInv table held done own pending w) (hn : n ∈ pending)
    (hr : (n.deserializeWithFs cfg mountFds).run World.performSession w = (.ok false, w)) :
    ∃ p, n.parent = some p ∧ p ∉ done.map SerializedInode.id := by
  have hend := h.attempt hcfg ht mountFds hn
  rw [hr] at hend
  cases hend with
  | deferred hl hget =>
    have hp := SerializedInode.parent_eq_some.mpr ⟨_, hl⟩
    refine ⟨_, hp, fun hdone => ?_⟩
    obtain ⟨r, hr⟩ := h.get_of_count (h.contains_parent hn hp hdone)
    rw [hget] at hr
    cases hr

/-- **If all inodes left are deferred, they lead nowhere.** -/
theorem LoopInv.done_of_grounded (h : LoopInv table held done own pending w)
    (hall : ∀ n ∈ pending,
      (n.deserializeWithFs cfg mountFds).run World.performSession w = (.ok false, w))
    (hg : Grounded table i) : i ∈ done.map SerializedInode.id := by
  induction hg with
  | base hn hp =>
    rcases mem_append.mp (h.perm.mem_iff.mp hn) with hdone | hpending
    · exact mem_map_of_mem hdone
    · obtain ⟨p, hp', -⟩ := h.parent_of_deferred hcfg ht mountFds hpending (hall _ hpending)
      rw [hp] at hp'
      cases hp'
  | child hn hp _ ih =>
    rcases mem_append.mp (h.perm.mem_iff.mp hn) with hdone | hpending
    · exact mem_map_of_mem hdone
    · obtain ⟨p, hp', hnot⟩ := h.parent_of_deferred hcfg ht mountFds hpending (hall _ hpending)
      rw [hp] at hp'
      cases hp'
      exact absurd ih hnot

end

/-! ## 5. The root, and the whole -/

section

variable {cfg : Config} {w w' : World}

theorem openMountFds_meets {ok : AllowedAnswers} {safe : LocalPanic → Prop} (root : Fd) :
    ∀ mountPaths, Meets ok safe (openMountFds root mountPaths) (fun _ => True)
  | [] => Obeys.ret trivial
  | (_, path) :: rest => by
    have hmount : Meets ok safe (newMountFd root path) (fun _ => True) := by
      refine (errContext_meets (openatStr_meets _ _ _)).bind fun fd _ => ?_
      exact (errContext_meets (statx_meets fd none)).bind fun _ _ => Obeys.ret trivial
    refine hmount.attempt.bind fun mount _ => ?_
    refine (openMountFds_meets root rest).bind fun mounts _ => ?_
    cases mount <;> exact Obeys.ret trivial

/-- How the prelude of the loop ends. -/
inductive RootRestored (table : List SerializedInode) (held : Inode → Nat) :
    Outcome IoError PanicSite (List (Nat × Nat) × List SerializedInode) × World → Prop where
  | ok {mountFds : List (Nat × Nat)} {pending : List SerializedInode} {w' : World}
      (h : Restoring table held pending w') : RootRestored table held (.ok (mountFds, pending), w')
  | err {e : IoError} {w' : World} : RootRestored table held (.err e, w')

theorem RootRestored.of_neutral {own : Multiset Inode}
    {res : Outcome IoError PanicSite (List (Nat × Nat) × List SerializedInode) × World}
    (h : LoopInv table held done own pending w)
    (hend : NeutralEnd (fun r => r.2 = pending) w res) : RootRestored table held res := by
  cases hend with
  | @ok r w₂ hr hs =>
    obtain ⟨mountFds, pending⟩ := r
    cases hr
    exact .ok ⟨_, _, h.of_inodes hs⟩
  | err _ => exact .err

/-- The root of a source is not found by a path. -/
theorem SerializedInode.FromSource.root (h : n.FromSource) (hid : n.id = ROOT_ID) :
    n.parent = none ∧ ∀ s, n.base s = s := by
  unfold SerializedInode.FromSource at h
  unfold SerializedInode.parent base
  cases hl : n.location <;> simp_all

theorem restoreRoot_run (cfg : Config) (ht : SourceTable table held)
    (h : LoopInv table held [] 0 table w) (mountPaths : List (Nat × Name)) :
    RootRestored table held ((restoreRoot cfg mountPaths table).run World.performSession w) := by
  unfold restoreRoot
  split
  · exact .ok ⟨_, _, h⟩
  · split
    · exact .err
    · rename_i i hidx
      split
      · exact .err
      · rename_i n hroot
        have hid : n.id = ROOT_ID := by
          obtain ⟨hlt, hp, -⟩ := List.findIdx?_eq_some_iff_getElem.mp hidx
          obtain ⟨_, rfl⟩ := List.getElem?_eq_some_iff.mp hroot
          simpa using hp
        have hn : n ∈ table := mem_of_getElem? hroot
        obtain ⟨hparent, hbase⟩ := (ht.fromSource n hn).root hid
        have hfree : w.fs.inodes.contains ROOT_ID = false := by
          rw [← hid, ← hbase w.fs.inodes]
          exact h.base_contains ht hn
        simp only [bind_eq]
        rcases deserializeRootNode_run cfg hid hfree with
          ⟨d, info, w₁, hr, hd, hinfo, hs⟩ | ⟨e, w₁, hr⟩
        · have hget : w₁.fs.inodes.get ROOT_ID = some (w.fs.inodes.insertNew
              ⟨d, n.refcount, info⟩).1 := by
            rw [hs, ← hid, ← hd]
            exact InodeStoreInner.get_insertNew_self
          have hquery : (liftM (query (.get ROOT_ID)) : SessionM (Option InodeRef)).run
              World.performSession w₁ = (.ok (w₁.fs.inodes.get ROOT_ID), w₁) := rfl
          rw [run_bind_of_ok _ hr, run_bind_of_ok _ hquery, hget]
          obtain ⟨own', h'⟩ := h.restored ht (perm_swapRemove hroot) (by simp [hparent]) hd hinfo
            (by rw [hbase]; exact hs)
          have hmounts : NoPanic ((errContext d.getFile "Cannot open shared directory").bind
              fun file => (openMountFds file mountPaths).bind fun mountFds =>
                .ret (mountFds, swapRemove table i))
              (fun r => r.2 = swapRemove table i) :=
            (errContext_meets (getFile_meets d)).bind fun file _ =>
              (openMountFds_meets file mountPaths).bind fun _ _ => Obeys.ret rfl
          have hend := hmounts.session w₁
          simp only [session_bind] at hend
          exact RootRestored.of_neutral h' hend
        · rw [run_bind_of_err _ hr]
          exact .err

/-- The error is one of opening the root. -/
def RootFails (cfg : Config) (mountPaths : List (Nat × Name)) (table : List SerializedInode)
    (e : IoError) (w' : World) : Prop :=
  (∃ w, (restoreRoot cfg mountPaths table).run World.performSession w = (.err e, w')) ∨
    ∃ n ∈ table, n.location = .rootNode ∧
      ∃ w, (n.deserializeRootNode cfg).run World.performSession w = (.err e, w')

/-- **The root opens**: if restoring the inodes fails, then not because of the root. -/
def RootOpens (cfg : Config) (mountPaths : List (Nat × Name)) (table : List SerializedInode)
    (w : World) : Prop :=
  ∀ e w', (restoreInodes cfg mountPaths table).run World.performSession w = (.err e, w') →
    ¬ RootFails cfg mountPaths table e w'

/-- The store of a destination that has restored what the guest holds, and nothing else. -/
def HoldsExactly (s : InodeStoreInner) (table : List SerializedInode) (held : Inode → Nat) : Prop :=
  ∀ i, (s.contains i = true ↔ i ∈ table.map SerializedInode.id ∧ 0 < held i) ∧
    (i ∈ table.map SerializedInode.id → s.refcount i = held i)

/-- In every state of the loop, the inodes below which others are still to be found are in
the store once they have been restored. -/
def ParentsStay (cfg : Config) (mountPaths : List (Nat × Name)) (table : List SerializedInode)
    (w : World) : Prop :=
  ∀ mountFds rest w₁, (do sessionAct .clear; restoreRoot cfg mountPaths table : SessionM _).run
      World.performSession w = (.ok (mountFds, rest), w₁) →
    ∀ pending w', Deferral.Visits World.performSession
        (SerializedInode.deserializeWithFs cfg mountFds) rest w₁ pending w' →
      ∀ n ∈ pending, ∀ p, n.parent = some p → p ∈ table.map SerializedInode.id →
        p ∉ pending.map SerializedInode.id → w'.fs.inodes.contains p = true

theorem clear_run (w : World) : ∃ w', (sessionAct .clear).run World.performSession w =
    (.ok (), w') ∧ w'.fs.inodes = .empty :=
  ⟨_, rfl, rfl⟩

/-- How restoring the inodes ends. -/
inductive RestoreEnd (cfg : Config) (mountPaths : List (Nat × Name))
    (table : List SerializedInode) (held : Inode → Nat) :
    Outcome IoError PanicSite Unit × World → Prop where
  | done {w' : World} (h : Restoring table held [] w') :
      RestoreEnd cfg mountPaths table held (.ok (), w')
  | unresolved {w' : World} (h : ∃ n ∈ table, ¬ Grounded table n.id) :
      RestoreEnd cfg mountPaths table held (.err unresolvedReferences, w')
  | rootFailed {e : IoError} {w' : World} (h : RootFails cfg mountPaths table e w') :
      RestoreEnd cfg mountPaths table held (.err e, w')

theorem inodeLoop_run (hcfg : cfg.migrationOnError = .guestError) (ht : SourceTable table held)
    (mountPaths : List (Nat × Name)) (mountFds : List (Nat × Nat))
    (h : Restoring table held pending w) : RestoreEnd cfg mountPaths table held
      ((inodeLoop cfg mountFds pending).run World.performSession w) := by
  have hend := Deferral.loop_run unresolvedReferences
    (restoring_rule hcfg ht mountFds) pending.length pending w (le_refl _) h
  unfold inodeLoop
  generalize (Deferral.loop _ _ _ _).run World.performSession w = res at hend ⊢
  obtain ⟨o, w'⟩ := res
  cases hend with
  | done hinv => exact .done hinv
  | @unresolved l _ hinv hne hall =>
    obtain ⟨done, own, h'⟩ := hinv
    obtain ⟨n, hn⟩ := exists_mem_of_ne_nil l hne
    refine .unresolved ⟨n, h'.mem_table hn, fun hg => ?_⟩
    exact h'.not_mem_done ht hn (h'.done_of_grounded hcfg ht mountFds hall hg)
  | failed hf =>
    obtain ⟨l, w₁, n, ⟨done, own, h'⟩, hn, ⟨e, rfl, hr⟩ | ⟨q, rfl, hr⟩⟩ := hf
    all_goals
      have hatt := h'.attempt hcfg ht mountFds hn
      rw [hr] at hatt
      cases hatt
    rename_i hl hr'
    exact .rootFailed (.inr ⟨n, h'.mem_table hn, hl, w₁, hr'⟩)

theorem restoreInodes_run (hcfg : cfg.migrationOnError = .guestError)
    (ht : SourceTable table held) (mountPaths : List (Nat × Name)) (w : World) :
    RestoreEnd cfg mountPaths table held
      ((restoreInodes cfg mountPaths table).run World.performSession w) := by
  obtain ⟨w₁, hclear, hempty⟩ := clear_run w
  have hroot := restoreRoot_run cfg ht (LoopInv.start table held hempty) mountPaths
  unfold restoreInodes
  rw [bind_eq, run_bind_of_ok _ hclear, bind_eq, run_bind]
  rcases hr : (restoreRoot cfg mountPaths table).run World.performSession w₁ with
    ⟨⟨mountFds, rest⟩ | e | q, w₂⟩ <;> rw [hr] at hroot <;> cases hroot
  · rename_i h
    exact inodeLoop_run hcfg ht mountPaths mountFds h
  · exact .rootFailed (.inl ⟨w₁, hr⟩)

theorem Restoring.grounded (h : Restoring table held [] w) (hn : n ∈ table) :
    Grounded table n.id := by
  obtain ⟨done, own, h⟩ := h
  have hdone := h.perm.mem_iff.mp hn
  rw [append_nil] at hdone
  exact h.grounded n hdone

theorem Restoring.holdsExactly (h : Restoring table held [] w) :
    HoldsExactly w.fs.inodes table held := by
  obtain ⟨done, own, h⟩ := h
  intro i
  have hmem : i ∈ done.map SerializedInode.id ↔ i ∈ table.map SerializedInode.id := by
    have hperm := h.perm
    rw [append_nil] at hperm
    exact (hperm.map SerializedInode.id).mem_iff.symm
  have hcount : own.count i = if i ∈ table.map SerializedInode.id then held i else 0 := by
    rw [h.count i]
    simp only [hmem]
    rfl
  rw [h.contains_iff, h.refcount_eq, hcount]
  by_cases hi : i ∈ table.map SerializedInode.id <;> simp [hi]

theorem parentsStay (hcfg : cfg.migrationOnError = .guestError) (ht : SourceTable table held)
    (mountPaths : List (Nat × Name)) (w : World) : ParentsStay cfg mountPaths table w := by
  intro mountFds rest w₁ hr pending w' hv n hn p hp hpt hpending
  obtain ⟨w₀, hclear, hempty⟩ := clear_run w
  rw [bind_eq, run_bind_of_ok _ hclear] at hr
  have hroot := restoreRoot_run cfg ht (LoopInv.start table held hempty) mountPaths
  rw [hr] at hroot
  cases hroot with
  | ok h =>
    obtain ⟨done, own, h'⟩ := hv.inv (restoring_rule hcfg ht mountFds) h
    have hdone : p ∈ done.map SerializedInode.id := by
      have := (h'.perm.map SerializedInode.id).mem_iff.mp hpt
      rw [map_append, mem_append] at this
      exact this.resolve_right hpending
    exact (h'.contains_iff p).mpr (h'.contains_parent hn hp hdone)

/-- **Refcounts survive a migration.**  For every table of a source, in every order and for
every pattern of failures that the destination turns into invalid inodes: if the parent links
lead somewhere, the destination ends up with what the guest holds, and nothing else; if not,
the loop ends with an error.  No parent is removed before its last child is restored. -/
theorem refcounts_survive_migration (hcfg : cfg.migrationOnError = .guestError)
    (ht : SourceTable table held) (mountPaths : List (Nat × Name))
    (hroot : RootOpens cfg mountPaths table w) :
    ((∀ n ∈ table, Grounded table n.id) →
      ∃ w', (restoreInodes cfg mountPaths table).run World.performSession w = (.ok (), w') ∧
        HoldsExactly w'.fs.inodes table held) ∧
    (Broken table → ∃ w', (restoreInodes cfg mountPaths table).run World.performSession w =
      (.err unresolvedReferences, w')) ∧
    ParentsStay cfg mountPaths table w := by
  have hend := restoreInodes_run hcfg ht mountPaths w
  refine ⟨fun hall => ?_, fun hbroken => ?_, parentsStay hcfg ht mountPaths w⟩
  · rcases hr : (restoreInodes cfg mountPaths table).run World.performSession w with ⟨o, w'⟩
    rw [hr] at hend
    cases hend with
    | done h => exact ⟨w', rfl, h.holdsExactly⟩
    | unresolved h =>
      obtain ⟨n, hn, hng⟩ := h
      exact absurd (hall n hn) hng
    | rootFailed h => exact absurd h (hroot _ _ hr)
  · obtain ⟨n, hn, hng⟩ := hbroken.not_grounded ht
    rcases hr : (restoreInodes cfg mountPaths table).run World.performSession w with ⟨o, w'⟩
    rw [hr] at hend
    cases hend with
    | done h => exact absurd (h.grounded hn) hng
    | unresolved _ => exact ⟨w', rfl⟩
    | rootFailed h => exact absurd h (hroot _ _ hr)

/-- A file in a directory that the guest has forgotten, sent before its parents. -/
def fileFirst : List SerializedInode :=
  [⟨3, 1, .path 2 [0x62], none⟩, ⟨2, 1, .path ROOT_ID [0x61], none⟩, ⟨ROOT_ID, 3, .rootNode, none⟩]

/-- The guest has the root and the file. -/
def fileHeld (i : Inode) : Nat := if i = ROOT_ID then 2 else if i = 3 then 1 else 0

def guestErrors : Config := { Config.default with migrationOnError := .guestError }

theorem fileFirst_source : SourceTable fileFirst fileHeld where
  nodup := by decide
  fromSource n hn := by
    simp only [fileFirst, mem_cons, not_mem_nil, or_false] at hn
    rcases hn with rfl | rfl | rfl <;> simp [SerializedInode.FromSource, ROOT_ID]
  refcount := by decide
  positive := by decide

theorem fileFirst_grounded : ∀ n ∈ fileFirst, Grounded fileFirst n.id := by
  have hroot : Grounded fileFirst ROOT_ID :=
    .base (n := ⟨ROOT_ID, 3, .rootNode, none⟩) (by decide) rfl
  have hdir : Grounded fileFirst 2 :=
    .child (n := ⟨2, 1, .path ROOT_ID [0x61], none⟩) (by decide) rfl hroot
  have hfile : Grounded fileFirst 3 :=
    .child (n := ⟨3, 1, .path 2 [0x62], none⟩) (by decide) rfl hdir
  intro n hn
  simp only [fileFirst, mem_cons, not_mem_nil, or_false] at hn
  rcases hn with rfl | rfl | rfl
  · exact hfile
  · exact hdir
  · exact hroot

theorem fileFirst_rootOpens : RootOpens guestErrors [] fileFirst (freshWorld 8) := by
  intro e w' hr
  have hok : ((restoreInodes guestErrors [] fileFirst).run World.performSession
      (freshWorld 8)).1 = .ok () := by rfl
  rw [hr] at hok
  cases hok

/-- The file is there, and its directory is gone. -/
theorem refcounts_survive_migration_fileFirst :
    ∃ w', (restoreInodes guestErrors [] fileFirst).run World.performSession (freshWorld 8) =
      (.ok (), w') ∧ HoldsExactly w'.fs.inodes fileFirst fileHeld :=
  (refcounts_survive_migration rfl fileFirst_source [] fileFirst_rootOpens).1 fileFirst_grounded

end

end Virtiofsd
