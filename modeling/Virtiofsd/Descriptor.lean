/-
  # Descriptor chains (`descriptor_utils.rs`)

  A descriptor chain is a list of slices of guest memory that is used up from the front.
  `consume` hands the slices that are needed for `count` bytes to a function, and moves on by
  as many bytes as that function says it has used.

  It hands them out WHOLE: its documentation guarantees that the combined length of the
  slices is at most `count`, but the last one is not cut.  The guarantee holds exactly if the
  chain has a boundary at `count` bytes, or ends before (`totalLen_handed_le_iff`).
-/
import Virtiofsd.Passthrough.Actions
import Mathlib

namespace Virtiofsd

open Lib

/-! ## 1. Lists of slices -/

/-- The combined length of slices. -/
def totalLen (bufs : List VolatileSlice) : Nat := (bufs.map VolatileSlice.len).sum

variable {bufs : List VolatileSlice}

@[simp] theorem totalLen_nil : totalLen [] = 0 := rfl

@[simp] theorem totalLen_cons (vs : VolatileSlice) (rest : List VolatileSlice) :
    totalLen (vs :: rest) = vs.len + totalLen rest := by
  simp [totalLen]

/-- The loop of `consume` that collects slices: `buflen` bytes have been collected. -/
def collect (count : Nat) : Nat → List VolatileSlice → List VolatileSlice
  | _, [] => []
  | buflen, vs :: rest =>
    if buflen ≥ count then []
    else
      let rem := count - buflen
      vs :: collect count (if rem < vs.len then buflen + rem else buflen + vs.len) rest

/-- The loop of `consume` that moves on: `rem` bytes are left to skip. -/
def advance (rem : Nat) : List VolatileSlice → List VolatileSlice
  | [] => []
  | vs :: rest =>
    if rem < vs.len then ⟨vs.addr + rem, vs.len - rem⟩ :: rest else advance (rem - vs.len) rest

/-- Slices for `count` bytes, without the accumulator. -/
def handed (count : Nat) : List VolatileSlice → List VolatileSlice
  | [] => []
  | vs :: rest => if count = 0 then [] else vs :: handed (count - vs.len) rest

theorem collect_eq_handed (count : Nat) : ∀ (bufs : List VolatileSlice) (buflen : Nat),
    collect count buflen bufs = handed (count - buflen) bufs
  | [], _ => rfl
  | vs :: rest, buflen => by
    unfold collect handed
    by_cases h : buflen ≥ count
    · rw [if_pos h, if_pos (by omega)]
    · rw [if_neg h, if_neg (by omega)]
      dsimp only
      rw [collect_eq_handed count rest]
      split
      · rw [show count - (buflen + (count - buflen)) = count - buflen - vs.len by omega]
      · rw [show count - (buflen + vs.len) = count - buflen - vs.len by omega]

theorem handed_eq_nil_iff {count : Nat} :
    handed count bufs = [] ↔ count = 0 ∨ bufs = [] := by
  cases bufs with
  | nil => simp [handed]
  | cons vs rest =>
    unfold handed
    by_cases h : count = 0 <;> simp [h]

theorem totalLen_handed_le (bufs : List VolatileSlice) : ∀ count,
    totalLen (handed count bufs) ≤ totalLen bufs := by
  induction bufs with
  | nil => exact fun _ => le_refl _
  | cons vs rest ih =>
    intro count
    unfold handed
    split
    · simp
    · have := ih (count - vs.len)
      simp only [totalLen_cons]
      omega

/-! ## 2. Chains with a boundary where the request ends -/

/-- **The chain ends within `count` bytes, or has a boundary there.** -/
def Aligned (bufs : List VolatileSlice) (count : Nat) : Prop :=
  totalLen bufs ≤ count ∨ ∃ k, totalLen (bufs.take k) = count

theorem aligned_zero (bufs : List VolatileSlice) : Aligned bufs 0 := .inr ⟨0, rfl⟩

theorem aligned_cons {vs : VolatileSlice} {rest : List VolatileSlice} {count : Nat}
    (h : vs.len ≤ count) : Aligned (vs :: rest) count ↔ Aligned rest (count - vs.len) := by
  unfold Aligned
  constructor
  · rintro (hle | ⟨k, hk⟩)
    · left
      rw [totalLen_cons] at hle
      omega
    · cases k with
      | zero =>
        have hzero : count = 0 := by simpa using hk.symm
        exact .inr ⟨0, by simp [hzero]⟩
      | succ k =>
        refine .inr ⟨k, ?_⟩
        rw [List.take_succ_cons, totalLen_cons] at hk
        omega
  · rintro (hle | ⟨k, hk⟩)
    · left
      rw [totalLen_cons]
      omega
    · refine .inr ⟨k + 1, ?_⟩
      rw [List.take_succ_cons, totalLen_cons]
      omega

theorem not_aligned_cons {vs : VolatileSlice} {rest : List VolatileSlice} {count : Nat}
    (hpos : 0 < count) (h : count < vs.len) : ¬ Aligned (vs :: rest) count := by
  rintro (hle | ⟨k, hk⟩)
  · rw [totalLen_cons] at hle
    omega
  · cases k with
    | zero => simp at hk; omega
    | succ k =>
      rw [List.take_succ_cons, totalLen_cons] at hk
      omega

/-- **When the guarantee of `consume` holds.** -/
theorem totalLen_handed_le_iff (bufs : List VolatileSlice) : ∀ count,
    totalLen (handed count bufs) ≤ count ↔ Aligned bufs count := by
  induction bufs with
  | nil => exact fun count => by simp [handed, Aligned]
  | cons vs rest ih =>
    intro count
    unfold handed
    by_cases hzero : count = 0
    · rw [if_pos hzero, hzero]
      exact iff_of_true (Nat.zero_le _) (aligned_zero _)
    · rw [if_neg hzero, totalLen_cons]
      by_cases hle : vs.len ≤ count
      · rw [aligned_cons hle, ← ih]
        omega
      · have hcut : ¬ Aligned (vs :: rest) count :=
          not_aligned_cons (Nat.pos_of_ne_zero hzero) (Nat.lt_of_not_le hle)
        refine iff_of_false ?_ hcut
        omega

/-- What is handed out then. -/
theorem totalLen_handed : ∀ {count}, Aligned bufs count →
    totalLen (handed count bufs) = min count (totalLen bufs) := by
  induction bufs with
  | nil => exact fun _ => by simp [handed]
  | cons vs rest ih =>
    intro count h
    unfold handed
    by_cases hzero : count = 0
    · simp [hzero]
    · rw [if_neg hzero]
      have hle : vs.len ≤ count := by
        by_contra hlt
        exact not_aligned_cons (Nat.pos_of_ne_zero hzero) (Nat.lt_of_not_le hlt) h
      rw [totalLen_cons, totalLen_cons, ih ((aligned_cons hle).mp h)]
      omega

/-! ## 3. Moving on -/

theorem totalLen_advance (bufs : List VolatileSlice) : ∀ n,
    totalLen (advance n bufs) = totalLen bufs - n := by
  induction bufs with
  | nil => exact fun n => by simp [advance]
  | cons vs rest ih =>
    intro n
    unfold advance
    split
    · simp only [totalLen_cons]
      omega
    · rw [ih, totalLen_cons]
      omega

theorem advance_eq_nil_iff : ∀ {n},
    advance n bufs = [] ↔ totalLen bufs ≤ n := by
  induction bufs with
  | nil => simp [advance]
  | cons vs rest ih =>
    intro n
    unfold advance
    split
    · simp only [reduceCtorEq, totalLen_cons, false_iff]
      omega
    · rw [ih, totalLen_cons]
      omega

theorem Aligned.advance : ∀ {count n}, Aligned bufs count → n ≤ count →
    Aligned (advance n bufs) (count - n) := by
  induction bufs with
  | nil => exact fun _ _ => by simp [Virtiofsd.advance, Aligned]
  | cons vs rest ih =>
    intro count n h hn
    unfold Virtiofsd.advance
    split
    · rename_i hlt
      rcases h with hle | ⟨k, hk⟩
      · left
        simp only [totalLen_cons] at hle ⊢
        omega
      · cases k with
        | zero => exact .inr ⟨0, by simp at hk ⊢; omega⟩
        | succ k =>
          refine .inr ⟨k + 1, ?_⟩
          rw [List.take_succ_cons, totalLen_cons] at hk ⊢
          dsimp only
          omega
    · rename_i hge
      have := ih ((aligned_cons (by omega)).mp h) (n := n - vs.len) (by omega)
      rwa [show count - vs.len - (n - vs.len) = count - n by omega] at this

/-! ## 4. Chains -/

/-- `usize::MAX + 1`. -/
def usizeSize : Nat := 2 ^ 64

/-- **`DescriptorChainConsumer`.**  `Reader::new` and `Writer::new` check that the length of
the whole chain is a `usize`. -/
structure DescriptorChainConsumer where
  buffers : List VolatileSlice
  bytesConsumed : Nat
  fits : bytesConsumed + totalLen buffers < usizeSize

namespace DescriptorChainConsumer

/-- `available_bytes`. -/
def availableBytes (c : DescriptorChainConsumer) : Nat := totalLen c.buffers

/-- The consumer after `n` more bytes. -/
def moveOn (c : DescriptorChainConsumer) (n : Nat) (h : c.bytesConsumed + n < usizeSize) :
    DescriptorChainConsumer where
  buffers := advance n c.buffers
  bytesConsumed := c.bytesConsumed + n
  fits := by
    have := c.fits
    rw [totalLen_advance]
    omega

variable {A : Type} {R : A → Type} {P : Type}

/-- **`consume`.**  Returns the chain as it is afterwards. -/
def consume (c : DescriptorChainConsumer) (count : Nat)
    (f : List VolatileSlice → Prog A R IoError P Nat) :
    Prog A R IoError P (Nat × DescriptorChainConsumer) :=
  let bufs := collect count 0 c.buffers
  if bufs.isEmpty then return (0, c)
  else do
    let bytesConsumed ← f bufs
    if h : c.bytesConsumed + bytesConsumed < usizeSize then
      return (bytesConsumed, c.moveOn bytesConsumed h)
    else .err (.custom .invalidData
      "the combined length of all the buffers in a `DescriptorChain` would overflow")

/-- `split_at` on the list of slices; `none` if the offset is out of bounds. -/
def splitBuffers (rem : Nat) : List VolatileSlice → Option (List VolatileSlice × List VolatileSlice)
  | [] => if rem = 0 then some ([], []) else none
  | vs :: rest =>
    if rem < vs.len then
      if rem > 0 then some ([⟨vs.addr, rem⟩], ⟨vs.addr + rem, vs.len - rem⟩ :: rest)
      else some ([], vs :: rest)
    else (splitBuffers (rem - vs.len) rest).map fun s => (vs :: s.1, s.2)

theorem splitBuffers_totalLen : ∀ (bufs : List VolatileSlice) {offset : Nat}
    {front back : List VolatileSlice}, splitBuffers offset bufs = some (front, back) →
    totalLen front = offset ∧ offset + totalLen back = totalLen bufs
  | [], offset, front, back, h => by
    unfold splitBuffers at h
    split at h
    · cases h
      simp_all
    · cases h
  | vs :: rest, offset, front, back, h => by
    unfold splitBuffers at h
    split at h
    · split at h
      · cases h
        simp only [totalLen_cons, totalLen_nil]
        omega
      · cases h
        simp only [totalLen_cons, totalLen_nil]
        omega
    · obtain ⟨s, hs, he⟩ := Option.map_eq_some_iff.mp h
      cases he
      have := splitBuffers_totalLen rest hs
      simp only [totalLen_cons]
      omega

/-- The split fails exactly if the offset is out of bounds. -/
theorem splitBuffers_isSome_iff : ∀ (bufs : List VolatileSlice) (offset : Nat),
    (splitBuffers offset bufs).isSome ↔ offset ≤ totalLen bufs
  | [], offset => by
    unfold splitBuffers
    by_cases h : offset = 0 <;> simp [h]
  | vs :: rest, offset => by
    unfold splitBuffers
    split
    · split <;> simp <;> omega
    · rw [Option.isSome_map, splitBuffers_isSome_iff rest, totalLen_cons]
      omega

/-- **`split_at`**: what is left before the offset, and what comes after it. -/
def splitAt (c : DescriptorChainConsumer) (offset : Nat) :
    Option (DescriptorChainConsumer × DescriptorChainConsumer) :=
  match h : splitBuffers offset c.buffers with
  | none => none
  | some (front, back) =>
    have hlen := splitBuffers_totalLen c.buffers h
    have hfits := c.fits
    some (⟨front, c.bytesConsumed, by omega⟩, ⟨back, 0, by omega⟩)

end DescriptorChainConsumer

end Virtiofsd
