/-
  # Iterating over the store while it changes

  `InodeIterator` locks the store for one call of `next` at a time, and keeps no more than the
  last id it returned.  In between, other threads insert and remove inodes; here they may leave
  ANY store behind, whichever ids it holds.

  `last_id + 1` is a `u64`.  In a release build it wraps around, so an iteration that has come
  to the id `u64::MAX` starts over; a debug build panics there.
-/
import Virtiofsd.InodeStore.Cascade

namespace Virtiofsd

open List

/-- Other threads leave the store `s` behind, or `next` is called. -/
inductive IteratorEvent
  | change (s : InodeStoreInner)
  | next

/-- **`InodeIterator`**, with what happened since it was created. -/
structure InodeIterator where
  store : InodeStoreInner
  lastInode : Option Inode := none
  /-- The stores that were replaced. -/
  past : List InodeStoreInner := []
  /-- The ids returned, the last one first, each with the store it was found in. -/
  returned : List (Inode × InodeStoreInner) := []
  /-- `next` has returned `None`. -/
  ended : Bool := false

namespace InodeIterator

/-- `last_id + 1` -/
def lowerBound (it : InodeIterator) : Inode := it.lastInode.elim 0 fun last => (last + 1) % 2 ^ 64

/-- **`Iterator::next`.**  The `Arc` that is returned is the one stored under the id. -/
def next (it : InodeIterator) : InodeIterator :=
  match it.store.inodes.find? fun i => decide (it.lowerBound ≤ i) with
  | none => { it with ended := true }
  | some i => { it with lastInode := some i, returned := (i, it.store) :: it.returned }

def step (it : InodeIterator) : IteratorEvent → InodeIterator
  | .change s => { it with store := s, past := it.store :: it.past }
  | .next => it.next

def run (it : InodeIterator) (events : List IteratorEvent) : InodeIterator := events.foldl step it

def ids (it : InodeIterator) : List Inode := it.returned.map Prod.fst

/-- The calls of `next`. -/
def calls (events : List IteratorEvent) : Nat :=
  events.countP fun | .next => true | .change _ => false

/-- The ids of the stores to come satisfy `P`. -/
def Changes (P : Inode → Prop) (events : List IteratorEvent) : Prop :=
  ∀ s, .change s ∈ events → ∀ i ∈ s.inodes, P i

/-- **The iteration is sound so far**, and ends once inodes are only removed. -/
structure Sound (it : InodeIterator) : Prop where
  increasing : it.ids.Pairwise (· > ·)
  present : ∀ p ∈ it.returned, p.1 ∈ p.2.inodes
  complete : it.ended = true →
    ∀ i, (∀ s ∈ it.store :: it.past, i ∈ s.inodes) → it.ids.count i = 1
  ends : ∀ events, Changes (· ∈ it.store.inodes) events →
    it.store.inodes.length < calls events → (it.run events).ended = true

/-- What every event keeps. -/
structure Inv (it : InodeIterator) : Prop where
  increasing : it.ids.Pairwise (· > ·)
  bound : ∀ i ∈ it.ids, i < it.lowerBound
  present : ∀ p ∈ it.returned, p.1 ∈ p.2.inodes
  complete : ∀ i, (∀ s ∈ it.store :: it.past, i ∈ s.inodes) →
    i ∈ it.ids ∨ it.ended = false ∧ it.lowerBound ≤ i

variable {it : InodeIterator} {e : IteratorEvent} {events : List IteratorEvent}

/-- `next` returns the lowest id from the bound on, if there is any. -/
theorem next_cases (it : InodeIterator) :
    (it.next = { it with ended := true } ∧ ∀ i ∈ it.store.inodes, i < it.lowerBound) ∨
    ∃ i ∈ it.store.inodes, it.lowerBound ≤ i ∧
      (∀ j ∈ it.store.inodes, it.lowerBound ≤ j → i ≤ j) ∧
      it.next = { it with lastInode := some i, returned := (i, it.store) :: it.returned } := by
  unfold next
  split
  · rename_i hnone
    exact .inl ⟨rfl, fun i hi => by simpa using find?_eq_none.mp hnone i hi⟩
  · rename_i i hsome
    obtain ⟨hle, before, after, hids, hbefore⟩ := find?_eq_some_iff_append.mp hsome
    have hsorted : it.store.inodes.Pairwise (· ≤ ·) := pairwise_insertionSort _ _
    refine .inr ⟨i, by simp [hids], by simpa using hle, fun j hj hlj => ?_, rfl⟩
    rw [hids] at hj hsorted
    rcases mem_append.mp hj with hj | hj
    · exact absurd hlj (by simpa using hbefore j hj)
    · rcases mem_cons.mp hj with rfl | hj
      · exact le_refl j
      · exact rel_of_pairwise_cons (pairwise_append.mp hsorted).2.1 hj

theorem Inv.next (h : it.Inv) (hmax : ∀ i ∈ it.store.inodes, i + 1 < 2 ^ 64) : it.next.Inv := by
  obtain ⟨hnext, hall⟩ | ⟨i, hi, hle, hleast, hnext⟩ := it.next_cases <;> rw [hnext]
  · refine ⟨h.increasing, h.bound, h.present, fun i hi => .inl ?_⟩
    refine (h.complete i hi).resolve_right fun hlater => ?_
    exact absurd (hall i (hi _ mem_cons_self)) (Nat.not_lt.mpr hlater.2)
  · have hbelow : ∀ j ∈ it.ids, j < i := fun j hj => Nat.lt_of_lt_of_le (h.bound j hj) hle
    refine ⟨pairwise_cons.mpr ⟨hbelow, h.increasing⟩, ?_, forall_mem_cons.mpr ⟨hi, h.present⟩, ?_⟩
    · show ∀ j ∈ i :: it.ids, j < (i + 1) % 2 ^ 64
      rw [Nat.mod_eq_of_lt (hmax i hi), forall_mem_cons]
      exact ⟨Nat.lt_succ_self i, fun j hj => Nat.lt_succ_of_lt (hbelow j hj)⟩
    · intro j hj
      show j ∈ i :: it.ids ∨ _ ∧ (i + 1) % 2 ^ 64 ≤ j
      rw [Nat.mod_eq_of_lt (hmax i hi)]
      rcases h.complete j hj with hold | ⟨hended, hlater⟩
      · exact .inl (mem_cons_of_mem _ hold)
      · rcases (hleast j (hj _ mem_cons_self) hlater).eq_or_lt with rfl | hlt
        · exact .inl mem_cons_self
        · exact .inr ⟨hended, hlt⟩

theorem store_next (it : InodeIterator) : it.next.store = it.store := by
  unfold next
  split <;> rfl

theorem Inv.run (h : it.Inv) (hmax : ∀ i ∈ it.store.inodes, i + 1 < 2 ^ 64)
    (hevents : Changes (· + 1 < 2 ^ 64) events) :
    (it.run events).Inv ∧ ∀ i ∈ (it.run events).store.inodes, i + 1 < 2 ^ 64 := by
  induction events generalizing it with
  | nil => exact ⟨h, hmax⟩
  | cons e events ih =>
    have hrest : Changes (· + 1 < 2 ^ 64) events := fun s hs => hevents s (mem_cons_of_mem _ hs)
    cases e with
    | change s =>
      refine ih ⟨h.increasing, h.bound, h.present, fun i hi => ?_⟩ (hevents s mem_cons_self) hrest
      exact h.complete i fun t ht => hi t (mem_cons_of_mem _ ht)
    | next => exact ih (h.next hmax) (it.store_next ▸ hmax) hrest

theorem run_ended (h : it.ended = true) (events : List IteratorEvent) :
    (it.run events).ended = true := by
  induction events generalizing it with
  | nil => exact h
  | cons e events ih =>
    refine @ih (it.step e) ?_
    cases e with
    | change s => exact h
    | next => obtain ⟨hnext, -⟩ | ⟨i, -, -, -, hnext⟩ := it.next_cases <;> simp [step, hnext, h]

/-- Until then, each call has returned an id. -/
theorem new_ids {l : List Inode} (hl : it.store.inodes ⊆ l) (hevents : Changes (· ∈ l) events)
    (h : (it.run events).ended ≠ true) :
    ∃ new ⊆ l, new.length = calls events ∧ (it.run events).ids = new ++ it.ids := by
  induction events generalizing it with
  | nil => exact ⟨[], nil_subset l, rfl, rfl⟩
  | cons e events ih =>
    have hrest : Changes (· ∈ l) events := fun s hs => hevents s (mem_cons_of_mem _ hs)
    cases e with
    | change s => exact @ih (it.step (.change s)) (hevents s mem_cons_self) hrest h
    | next =>
      obtain ⟨new, hsub, hlen, hids⟩ := @ih it.next (it.store_next ▸ hl) hrest h
      obtain ⟨hnext, -⟩ | ⟨i, hi, -, -, hnext⟩ := it.next_cases
      · exact absurd (@run_ended it.next (by rw [hnext]) events) h
      · refine ⟨new ++ [i], by simp [hsub, hl hi], by simp [hlen, calls], hids.trans ?_⟩
        simp [ids, hnext]

theorem Inv.sound (h : it.Inv) (hmax : ∀ i ∈ it.store.inodes, i + 1 < 2 ^ 64) : it.Sound where
  increasing := h.increasing
  present := h.present
  complete hended i hi := by
    have hmem := (h.complete i hi).resolve_right fun hlater => by simp [hended] at hlater
    exact count_eq_one_of_mem (h.increasing.imp Nat.ne_of_gt) hmem
  ends events hevents hcalls := by
    by_contra hgo
    obtain ⟨new, hsub, hlen, hids⟩ := new_ids (fun _ hi => hi) hevents hgo
    have hsorted := (h.run hmax fun s hs i hi => hmax i (hevents s hs i hi)).1.increasing
    rw [hids, pairwise_append] at hsorted
    have hle := (subperm_of_subset (hsorted.1.imp Nat.ne_of_gt) hsub).length_le
    omega

/-- The bound never gets past `u64::MAX`, nor does the iteration. -/
theorem not_ended_of_max (hmem : 2 ^ 64 - 1 ∈ it.store.inodes) (h : it.ended = false) (n : Nat) :
    (it.run (replicate n .next)).ended = false := by
  induction n generalizing it with
  | zero => exact h
  | succ n ih =>
    refine @ih it.next (it.store_next.symm ▸ hmem) ?_
    obtain ⟨-, hall⟩ | ⟨i, -, -, -, hnext⟩ := it.next_cases
    · have hbound : it.lowerBound ≤ 2 ^ 64 - 1 := by
        unfold lowerBound
        cases it.lastInode with
        | none => exact Nat.zero_le _
        | some last => exact Nat.le_of_lt_succ (Nat.mod_lt _ (by decide))
      exact absurd (hall _ hmem) (Nat.not_lt.mpr hbound)
    · rw [hnext]
      exact h

/-- **Iterations over a store are sound, whatever other threads do to it, exactly if no inode
has the id `u64::MAX`.** -/
theorem iteration_sound_iff (s : InodeStoreInner) (hids : ∀ i ∈ s.inodes, i < 2 ^ 64) :
    (∀ events, Changes (· + 1 < 2 ^ 64) events → (run { store := s } events).Sound) ↔
      2 ^ 64 - 1 ∉ s.inodes := by
  constructor
  · intro h hmem
    have hended := (h [] nofun).ends (replicate (s.inodes.length + 1) .next)
      (fun _ hs => nomatch eq_of_mem_replicate hs) (by simp [calls, countP_replicate, run])
    have hgo := @not_ended_of_max { store := s } hmem rfl (s.inodes.length + 1)
    exact absurd (hgo.symm.trans hended) nofun
  · intro hmax events hevents
    have hstart : Inv { store := s } := ⟨.nil, nofun, nofun, fun i _ => .inr ⟨rfl, Nat.zero_le i⟩⟩
    have hbelow : ∀ i ∈ s.inodes, i + 1 < 2 ^ 64 := fun i hi =>
      Nat.lt_of_le_of_ne (hids i hi) fun heq => hmax ((Nat.eq_sub_of_add_eq heq) ▸ hi)
    obtain ⟨hinv, hlast⟩ := hstart.run hbelow hevents
    exact hinv.sound hlast

theorem iteration_sound_tied : InodeStoreInner.tied.inodes = [2, 3] ∧
    (run { store := InodeStoreInner.tied } [.next, .next, .next]).Sound := by
  have htied : InodeStoreInner.tied.inodes = [2, 3] := by decide
  refine ⟨htied, (iteration_sound_iff _ ?_).mpr ?_ _ nofun⟩ <;> simp [htied]

/-- An inode with that id is returned over and over. -/
theorem iteration_starts_over :
    let s := (InodeStoreInner.empty.insertNew ⟨InodeStoreInner.tiedData (2 ^ 64 - 1), 1, none⟩).2
    (run { store := s } [.next, .next]).ids = [2 ^ 64 - 1, 2 ^ 64 - 1] ∧
      ¬ (run { store := s } [.next, .next]).Sound := by
  intro s
  have hids : (run { store := s } [.next, .next]).ids = [2 ^ 64 - 1, 2 ^ 64 - 1] := by decide
  exact ⟨hids, fun h => absurd (hids ▸ h.increasing) (by decide)⟩

end InodeIterator

end Virtiofsd
