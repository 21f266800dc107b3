/-
  # Words of flags, bit by bit

  Flag words are combined with `&`, `|` and `!`.  What such a combination comes to is best
  seen at each bit on its own: `bit w i` is bit `i` of `w`, and two words are equal when all
  their bits are.
-/
import Mathlib.Data.BitVec

namespace Lib

/-- Bit `i` of a word. -/
def bit (w : UInt32) (i : Fin 32) : Bool := w.toBitVec.getLsbD i

variable {v w : UInt32} {i : Fin 32}

theorem word_ext_iff : v = w ↔ ∀ i, bit v i = bit w i := by
  constructor
  · rintro rfl i
    rfl
  · intro h
    exact UInt32.toBitVec_inj.mp (BitVec.eq_of_getLsbD_eq fun i hi => h ⟨i, hi⟩)

@[simp] theorem bit_and : bit (v &&& w) i = (bit v i && bit w i) := by
  simp [bit]

@[simp] theorem bit_or : bit (v ||| w) i = (bit v i || bit w i) := by
  simp [bit]

@[simp] theorem bit_not : bit (~~~w) i = !bit w i := by
  simp [bit]

@[simp] theorem bit_zero : bit 0 i = false := by
  simp [bit]

/-- A word has a flag of one bit, or has it not. -/
theorem and_flag_eq_zero {k : Fin 32} (hv : ∀ i, bit v i = decide (i = k)) :
    w &&& v = 0 ↔ bit w k = false := by
  rw [word_ext_iff]
  simp only [bit_and, hv, bit_zero]
  constructor
  · intro h
    simpa using h k
  · intro h i
    by_cases hi : i = k
    · rw [hi, h, Bool.false_and]
    · simp [hi]

end Lib
