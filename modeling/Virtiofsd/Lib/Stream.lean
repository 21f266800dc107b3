/-
  # Streams that are used up from the front

  A stream is what is left of a sequence, with the number of items that are gone.  It can be
  advanced and it can be split in two, after which each part is a stream of its own; so a run
  works on a list of HANDLES that grows (`runHandles`).

  Two kinds of handles that behave alike step by step behave alike in every run
  (`runHandles_map`).
-/
import Mathlib.Data.List.Basic

namespace Lib

open List

/-! ## 1. Streams -/

/-- **A stream**: how many items are gone, and those that are left. -/
structure Stream (α : Type) where
  consumed : Nat
  rest : List α

namespace Stream

variable {α : Type}

/-- `n` items further, or at the end. -/
def advance (s : Stream α) (n : Nat) : Stream α :=
  ⟨s.consumed + min n s.rest.length, s.rest.drop n⟩

/-- The part before an offset and the part behind it, which counts from its own beginning. -/
def splitAt (s : Stream α) (offset : Nat) : Option (Stream α × Stream α) :=
  if offset ≤ s.rest.length then
    some (⟨s.consumed, s.rest.take offset⟩, ⟨0, s.rest.drop offset⟩)
  else none

variable (s : Stream α)

/-- Advancing moves items from one count to the other. -/
theorem length_advance (n : Nat) :
    (s.advance n).consumed + (s.advance n).rest.length = s.consumed + s.rest.length := by
  simp only [advance, length_drop]
  omega

/-- Items taken in two steps. -/
theorem advance_advance (n k : Nat) :
    (s.advance n).advance k = s.advance (n + k) := by
  unfold advance
  simp only [length_drop, drop_drop, Stream.mk.injEq]
  exact ⟨by omega, trivial⟩

/-- What is asked for beyond the end changes nothing. -/
theorem advance_min (n : Nat) :
    s.advance (min n s.rest.length) = s.advance n := by
  unfold advance
  rcases Nat.le_total n s.rest.length with hle | hle
  · rw [Nat.min_eq_left hle, Nat.min_eq_left hle]
  · rw [Nat.min_eq_right hle, Nat.min_self, drop_length, drop_of_length_le hle]

theorem advance_of_le {n : Nat} (h : s.rest.length ≤ n) :
    s.advance n = ⟨s.consumed + s.rest.length, []⟩ := by
  unfold advance
  rw [Nat.min_eq_right h, drop_of_length_le h]

@[simp] theorem advance_zero : s.advance 0 = s := by
  simp [advance]

/-- Asking again for what was missing. -/
theorem advance_missing (n : Nat) :
    (s.advance n).advance (n - min n s.rest.length) = s.advance n := by
  rcases Nat.le_total n s.rest.length with hle | hle
  · rw [Nat.min_eq_left hle, Nat.sub_self, advance_zero]
  · rw [advance_advance, advance_of_le s hle, advance_of_le s (Nat.le_add_right_of_le hle)]

/-- Something is missing exactly if it is not there then either. -/
theorem missing_le_iff (n : Nat) :
    n - min n s.rest.length ≤ (s.advance n).rest.length ↔ n ≤ s.rest.length := by
  simp only [advance, length_drop]
  omega

end Stream

/-! ## 2. Handles -/

section Handles

variable {M C D Op Res : Type}

/-- A step of one handle: a result, the shared state and the handle afterwards, and perhaps a
new handle. -/
abbrev HandleStep (M C Op Res : Type) := M → C → Op → Res × M × C × Option C

/-- **A run**: operations on handles by their number.  A number without a handle is skipped. -/
def runHandles (step : HandleStep M C Op Res) : M → List C → List (Nat × Op) →
    List (Option Res) × M × List C
  | m, handles, [] => ([], m, handles)
  | m, handles, (i, op) :: ops =>
    match handles[i]? with
    | none =>
      let (results, after) := runHandles step m handles ops
      (none :: results, after)
    | some c =>
      let (r, m', c', new) := step m c op
      let (results, after) := runHandles step m' (handles.set i c' ++ new.toList) ops
      (some r :: results, after)

/-- **Handles that behave alike in every step behave alike in every run.** -/
theorem runHandles_map {step : HandleStep M C Op Res} {step' : HandleStep M D Op Res} (f : C → D)
    (hstep : ∀ m c op, step' m (f c) op =
      ((step m c op).1, (step m c op).2.1, f (step m c op).2.2.1,
        (step m c op).2.2.2.map f)) (ops : List (Nat × Op)) :
    ∀ m handles, runHandles step' m (handles.map f) ops =
      ((runHandles step m handles ops).1, (runHandles step m handles ops).2.1,
        (runHandles step m handles ops).2.2.map f) := by
  induction ops with
  | nil => exact fun _ _ => rfl
  | cons x ops ih =>
    obtain ⟨i, op⟩ := x
    intro m handles
    unfold runHandles
    rw [List.getElem?_map]
    cases handles[i]? with
    | none =>
      dsimp only [Option.map_none]
      rw [ih]
    | some c =>
      have hhandles : ((handles.map f).set i (f (step m c op).2.2.1) ++
          ((step m c op).2.2.2.map f).toList) =
          (handles.set i (step m c op).2.2.1 ++ (step m c op).2.2.2.toList).map f := by
        rw [map_append, map_set]
        cases (step m c op).2.2.2 <;> rfl
      dsimp only [Option.map_some]
      rw [hstep]
      dsimp only
      rw [hhandles, ih]

end Handles

end Lib
