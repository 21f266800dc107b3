/-
  # Writing to scattered memory

  Memory is a function of addresses.  A scattered buffer is the list of its addresses, in
  the order in which it is filled; if they are distinct, what was written can be read back.
-/
import Mathlib.Data.List.Nodup
import Mathlib.Logic.Function.Basic

namespace Lib

open List

/-- A memory of bytes. -/
abbrev Memory := Nat → UInt8

namespace Memory

variable {m : Memory} {addrs addrs' : List Nat} {bytes bytes' : List UInt8}

/-- Store bytes at addresses, until one of the lists ends. -/
def storeAt (m : Memory) : List Nat → List UInt8 → Memory
  | a :: addrs, b :: bytes => storeAt (Function.update m a b) addrs bytes
  | _, _ => m

@[simp] theorem storeAt_nil_left (m : Memory) (bytes : List UInt8) : m.storeAt [] bytes = m := by
  cases bytes <;> rfl

@[simp] theorem storeAt_nil_right (m : Memory) (addrs : List Nat) : m.storeAt addrs [] = m := by
  cases addrs <;> rfl

/-- One store after the other. -/
theorem storeAt_append (h : addrs.length = bytes.length) :
    (m.storeAt addrs bytes).storeAt addrs' bytes' =
      m.storeAt (addrs ++ addrs') (bytes ++ bytes') := by
  induction addrs generalizing m bytes with
  | nil =>
    obtain rfl : bytes = [] := length_eq_zero_iff.mp h.symm
    rfl
  | cons a addrs ih =>
    cases bytes with
    | nil => simp at h
    | cons b bytes => exact ih (by simpa using h)

/-- A store in two parts. -/
theorem storeAt_split (m : Memory) (addrs addrs' : List Nat) (bytes : List UInt8) :
    (m.storeAt addrs (bytes.take addrs.length)).storeAt addrs' (bytes.drop addrs.length) =
      m.storeAt (addrs ++ addrs') bytes := by
  induction addrs generalizing m bytes with
  | nil => simp
  | cons a addrs ih =>
    cases bytes with
    | nil => simp
    | cons b bytes => exact ih _ _

/-- Only as many addresses count as there are bytes. -/
theorem storeAt_take (m : Memory) (addrs : List Nat) (bytes : List UInt8) :
    m.storeAt (addrs.take bytes.length) bytes = m.storeAt addrs bytes := by
  induction addrs generalizing m bytes with
  | nil => simp
  | cons a addrs ih =>
    cases bytes with
    | nil => simp
    | cons b bytes => exact ih _ _

/-- A store goes on where the last one has ended. -/
theorem storeAt_drop (h : bytes.length ≤ addrs.length) :
    (m.storeAt addrs bytes).storeAt (addrs.drop bytes.length) bytes' =
      m.storeAt addrs (bytes ++ bytes') := by
  rw [← storeAt_take m addrs bytes, storeAt_append (length_take_of_le h),
    take_append_drop]

theorem storeAt_of_notMem {a : Nat} (h : a ∉ addrs) : m.storeAt addrs bytes a = m a := by
  induction addrs generalizing m bytes with
  | nil => rw [storeAt_nil_left]
  | cons a' addrs ih =>
    cases bytes with
    | nil => rw [storeAt_nil_right]
    | cons b bytes =>
      rw [mem_cons, not_or] at h
      rw [storeAt, ih h.2, Function.update_of_ne h.1]

/-- A store elsewhere is not seen. -/
theorem map_storeAt_of_disjoint (h : addrs.Disjoint addrs') :
    addrs.map (m.storeAt addrs' bytes) = addrs.map m :=
  map_congr_left fun _ ha => storeAt_of_notMem (h ha)

/-- **What was stored is read back.** -/
theorem map_storeAt (hnodup : addrs.Nodup) (h : bytes.length = addrs.length) :
    addrs.map (m.storeAt addrs bytes) = bytes := by
  induction addrs generalizing m bytes with
  | nil => exact (length_eq_zero_iff.mp h).symm
  | cons a addrs ih =>
    cases bytes with
    | nil => simp at h
    | cons b bytes =>
      obtain ⟨hnot, hnodup⟩ := nodup_cons.mp hnodup
      rw [map_cons, storeAt, storeAt_of_notMem hnot, Function.update_self,
        ih hnodup (by simpa using h)]

/-- The front of what was stored. -/
theorem take_map_storeAt (hnodup : addrs.Nodup) (h : bytes.length ≤ addrs.length) :
    (addrs.map (m.storeAt addrs (bytes ++ bytes'))).take bytes.length = bytes := by
  have hlen : bytes.length = (addrs.take bytes.length).length := (length_take_of_le h).symm
  have hstore : m.storeAt addrs (bytes ++ bytes') =
      (m.storeAt (addrs.take bytes.length) bytes).storeAt (addrs.drop bytes.length) bytes' := by
    rw [storeAt_append hlen.symm, take_append_drop]
  have hdisj : (addrs.take bytes.length).Disjoint (addrs.drop bytes.length) :=
    disjoint_take_drop hnodup (Nat.le_refl _)
  rw [← map_take, hstore, map_storeAt_of_disjoint hdisj,
    map_storeAt (hnodup.sublist (take_sublist _ _)) hlen]

end Memory

end Lib
