/-
  # Maps from ranges of keys

  A range map gives one value to all keys of a half-open range.  `RangeMaps` says what is asked
  of an implementation: an insertion overwrites, a look-up finds the value of the range that the
  key is in, and two ranges intersect if they share a key.  `RangeMaps.list` is the obvious one.
-/
import Mathlib.Order.MinMax
import Mathlib.Data.List.Basic

namespace Lib

/-- The keys from `start` up to `stop`, without `stop`; none if `stop` does not come after
`start`. -/
structure HalfOpen (K : Type) where
  start : K
  stop : K
  deriving DecidableEq

namespace HalfOpen

variable {K : Type} [LinearOrder K] {r r' : HalfOpen K} {k : K}

/-- The range has the key. -/
def contains (r : HalfOpen K) (k : K) : Bool := r.start ≤ k && k < r.stop

theorem contains_iff : r.contains k = true ↔ r.start ≤ k ∧ k < r.stop := by
  simp [contains]

/-- The ranges share a key. -/
def overlaps (r r' : HalfOpen K) : Bool := max r.start r'.start < min r.stop r'.stop

theorem overlaps_iff : r.overlaps r' = true ↔ ∃ k, r.contains k = true ∧ r'.contains k = true := by
  simp only [overlaps, decide_eq_true_eq, contains_iff]
  constructor
  · intro h
    obtain ⟨h₁, h₂⟩ := lt_min_iff.mp h
    exact ⟨max r.start r'.start, ⟨le_max_left _ _, h₁⟩, le_max_right _ _, h₂⟩
  · rintro ⟨k, ⟨h₁, h₂⟩, h₃, h₄⟩
    exact lt_of_le_of_lt (max_le h₁ h₃) (lt_min h₂ h₄)

end HalfOpen

/-- **Range maps.** -/
structure RangeMaps (K : Type) [LinearOrder K] where
  Map : Type → Type
  empty : {V : Type} → Map V
  insert : {V : Type} → Map V → HalfOpen K → V → Map V
  intersects : {V : Type} → Map V → HalfOpen K → Bool
  get : {V : Type} → Map V → K → Option V
  get_empty : ∀ {V : Type} (k : K), get (empty : Map V) k = none
  get_insert : ∀ {V : Type} (m : Map V) (r : HalfOpen K) (v : V) (k : K),
    get (insert m r v) k = if r.contains k = true then some v else get m k
  intersects_iff : ∀ {V : Type} (m : Map V) (r : HalfOpen K),
    intersects m r = true ↔ ∃ k, r.contains k = true ∧ (get m k).isSome = true

namespace RangeMaps

variable {K : Type} [LinearOrder K]

/-- Lists of ranges with their values, the last one that was inserted first. -/
def list (K : Type) [LinearOrder K] : RangeMaps K where
  Map V := List (HalfOpen K × V)
  empty := []
  insert m r v := (r, v) :: m
  intersects m r := m.any fun e => e.1.overlaps r
  get m k := (m.find? fun e => e.1.contains k).map Prod.snd
  get_empty k := rfl
  get_insert m r v k := by
    rw [List.find?_cons]
    cases r.contains k with
    | true => rfl
    | false => rfl
  intersects_iff m r := by
    simp only [List.any_eq_true, HalfOpen.overlaps_iff, Option.isSome_map, List.find?_isSome]
    constructor
    · rintro ⟨e, he, k, hk, hr⟩
      exact ⟨k, hr, e, he, hk⟩
    · rintro ⟨k, hr, e, he, hk⟩
      exact ⟨e, he, k, hk, hr⟩

end RangeMaps

end Lib
