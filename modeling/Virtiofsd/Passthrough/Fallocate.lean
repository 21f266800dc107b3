/-
  # FALLOCATE on a Darwin host (`passthrough/util.rs`)

  Darwin has no `fallocate(2)`.  For mode 0 the daemon asks for blocks past the end of the file,
  which may fail, and then sets the size with `ftruncate(2)`.  A request for NO bytes takes the
  same way: behind the end of the file it makes the file grow.
-/
import Virtiofsd.Lib.Program
import Virtiofsd.Basic

namespace Virtiofsd.Darwin

open Lib

def EOPNOTSUPP : Errno := 102

/-! ## 1. The calls and the host -/

/-- `F_ALLOCATECONTIG` and `F_ALLOCATEALL`. -/
inductive AllocateFlags
  | contig
  | all

/-- The calls into the host, all on the file of the handle. -/
inductive FallocateCall
  | fstat
  | preallocate (flags : AllocateFlags) (length : Int)
  | ftruncate (size : Int)

abbrev FallocateCall.Ans : FallocateCall → Type
  | fstat => Except Errno Nat
  | preallocate _ _ => Bool
  | ftruncate _ => Except Errno Unit

abbrev FallocateM := Prog FallocateCall FallocateCall.Ans IoError Empty

/-- **A host**: the largest offset of a file, and which calls fail.  Blocks past the end of a
file are not part of it. -/
structure FallocateHost where
  maxOffset : Nat
  fstat : Option Errno
  preallocate : AllocateFlags → Int → Bool
  outOfRange : Errno
  ftruncate : Option Errno

/-- The file with another size; what is new is zero. -/
def resize (file : List UInt8) (size : Nat) : List UInt8 :=
  file.take size ++ List.replicate (size - file.length) 0

def FallocateHost.perform (h : FallocateHost) :
    (a : FallocateCall) → List UInt8 → a.Ans × List UInt8
  | .fstat, file => (h.fstat.elim (.ok file.length) .error, file)
  | .preallocate flags length, file => (h.preallocate flags length, file)
  | .ftruncate size, file =>
    if size < 0 ∨ h.maxOffset < size then (.error h.outOfRange, file)
    else
      match h.ftruncate with
      | some e => (.error e, file)
      | none => (.ok (), resize file size.toNat)

/-! ## 2. The emulation -/

/-- `as libc::off_t`, of a `u64`. -/
def offT (n : Nat) : Int := if n < 2 ^ 63 then n else n - 2 ^ 64

/-- `offset.saturating_add(length)` -/
def targetSize (offset length : UInt64) : Nat := min (offset.toNat + length.toNat) (2 ^ 64 - 1)

def call (a : FallocateCall) : FallocateM a.Ans := Prog.perform a

/-- `io::Error::last_os_error()`, if the call has failed. -/
def orLastOsError {α : Type} : Except Errno α → FallocateM α
  | .ok a => return a
  | .error e => .err (.os e)

/-- **`macos_emulate_fallocate`.** -/
def macosEmulateFallocate (mode : UInt32) (offset length : UInt64) : FallocateM Unit := do
  if mode ≠ 0 then .err (.os EOPNOTSUPP)
  let st ← call .fstat
  let currentSize ← orLastOsError st
  if targetSize offset length ≤ currentSize then return ()
  let bytesPastEof := offT (targetSize offset length - currentSize)
  let allocated ← call (.preallocate .contig bytesPastEof)
  if !allocated then
    let _ ← call (.preallocate .all bytesPastEof)
  let res ← call (.ftruncate (offT (targetSize offset length)))
  orLastOsError res

/-- **`PassthroughFs::fallocate`**, with the file that was `found` for the handle. -/
def fallocate (found : Except IoError Unit) (mode : UInt32) (offset length : UInt64) :
    FallocateM Unit := do
  Prog.ofExcept found
  macosEmulateFallocate mode offset length

/-! ## 3. What it does to the file -/

variable {h : FallocateHost} {found : Except IoError Unit} {file : List UInt8}
  {offset length : UInt64}

/-- The request fails, has nothing to do, or sets the size. -/
theorem fallocate_run :
    (fallocate found 0 offset length).run h.perform file =
      match found, h.fstat, h.ftruncate with
      | .error e, _, _ => (.err e, file)
      | _, some e, _ => (.err (.os e), file)
      | _, _, truncated =>
        if targetSize offset length ≤ file.length then (.ok (), file)
        else if offT (targetSize offset length) < 0 ∨
            h.maxOffset < offT (targetSize offset length) then (.err (.os h.outOfRange), file)
        else truncated.elim (.ok (), resize file (offT (targetSize offset length)).toNat)
          fun e => (.err (.os e), file) := by
  rcases found with e | ⟨⟩
  · rfl
  cases hstat : h.fstat with
  | some e =>
    simp [fallocate, macosEmulateFallocate, call, FallocateHost.perform, hstat, orLastOsError,
      Prog.perform, Prog.ofExcept]
  | none =>
    -- Both preallocations leave the file alone, whether they succeed or not.
    by_cases htarget : targetSize offset length ≤ file.length <;>
    by_cases hrange : offT (targetSize offset length) < 0 ∨
      h.maxOffset < offT (targetSize offset length) <;>
    cases halloc : h.preallocate .contig (offT (targetSize offset length - file.length)) <;>
    cases htruncate : h.ftruncate <;>
    simp [fallocate, macosEmulateFallocate, call, FallocateHost.perform, hstat, orLastOsError,
      Prog.perform, Prog.ofExcept, htarget, hrange, halloc, htruncate]

/-- **What a request of mode 0 should do**, with the largest offset of a file. -/
structure Fallocated (maxOffset : Nat) (file : List UInt8) (offset length : UInt64)
    (r : Outcome IoError Empty Unit × List UInt8) : Prop where
  contents : r.1 = .ok () → r.2.take file.length = file
  size : r.1 = .ok () → r.2.length = max file.length (offset.toNat + length.toNat)
  noBytes : length = 0 → r.2.length = file.length
  grows : file.length ≤ r.2.length
  tooLarge : maxOffset < offset.toNat + length.toNat → (∃ e, r.1 = .err e) ∧ r.2 = file

theorem length_resize {size : Nat} (hle : file.length ≤ size) :
    (resize file size).length = size := by
  simp [resize, hle]

theorem Fallocated.unchanged {maxOffset : Nat} (e : IoError) :
    Fallocated maxOffset file offset length (.err e, file) :=
  ⟨nofun, nofun, fun _ => rfl, le_rfl, fun _ => ⟨⟨e, rfl⟩, rfl⟩⟩

/-- **The emulation is right, however the calls end, exactly if bytes are asked for, or the
offset is not behind the end of the file, or beyond every file.** -/
theorem fallocate_iff {maxOffset : Nat} (hmax : maxOffset < 2 ^ 63) (file : List UInt8)
    (hfile : file.length ≤ maxOffset) (offset length : UInt64) :
    (∀ (h : FallocateHost) found, h.maxOffset = maxOffset → Fallocated maxOffset file offset length
      ((fallocate found 0 offset length).run h.perform file)) ↔
    length ≠ 0 ∨ offset.toNat ≤ file.length ∨ maxOffset < offset.toNat := by
  constructor
  · intro h
    by_contra hnot
    simp only [not_or, not_not, Nat.not_le, Nat.not_lt] at hnot
    obtain ⟨rfl, hbehind, hinside⟩ := hnot
    have hsize := (h ⟨maxOffset, none, fun _ _ => true, 0, none⟩ (.ok ()) rfl).noBytes rfl
    have htarget : targetSize offset 0 = offset.toNat := by
      simp only [targetSize, UInt64.toNat_zero]
      omega
    have hoff : offT offset.toNat = offset.toNat := if_pos (by omega)
    rw [fallocate_run] at hsize
    simp only [htarget, hoff] at hsize
    rw [if_neg (by omega), if_neg (by omega), Option.elim_none, Int.toNat_natCast,
      length_resize hbehind.le] at hsize
    omega
  · rintro hcond h found rfl
    rw [fallocate_run]
    split
    · exact .unchanged _
    · exact .unchanged _
    · split_ifs with htarget hrange
      · have hend : offset.toNat + length.toNat ≤ file.length := by
          unfold targetSize at htarget
          omega
        exact ⟨fun _ => List.take_length, fun _ => (max_eq_left hend).symm, fun _ => rfl, le_rfl,
          fun hlarge => absurd hlarge (by omega)⟩
      · exact .unchanged _
      · cases h.ftruncate with
        | some e => exact .unchanged _
        | none =>
          have hoff : offT (targetSize offset length) = (offset.toNat + length.toNat : Nat) := by
            unfold offT targetSize at hrange ⊢
            split_ifs at hrange ⊢ <;> omega
          have hlt : file.length < offset.toNat + length.toNat := by
            unfold targetSize at htarget
            omega
          rw [hoff] at hrange ⊢
          rw [Option.elim_none, Int.toNat_natCast]
          refine ⟨fun _ => ?_, fun _ => ?_, fun hzero => ?_, ?_, fun hlarge => ?_⟩
          · simp [resize, hlt.le]
          · rw [length_resize hlt.le, max_eq_right hlt.le]
          · subst hzero
            simp only [UInt64.toNat_zero, Nat.add_zero, ne_eq, not_true, false_or] at *
            omega
          · exact (length_resize hlt.le).symm ▸ hlt.le
          · omega

theorem fallocate_grows_to_end : Fallocated (2 ^ 63 - 1) [1, 2] 1 3
    ((fallocate (.ok ()) 0 1 3).run (FallocateHost.perform
      ⟨2 ^ 63 - 1, none, fun _ _ => false, 22, none⟩) [1, 2]) :=
  (fallocate_iff (by decide) [1, 2] (by decide) 1 3).mpr (.inl (by decide)) _ _ rfl

/-- A request for no bytes, eight bytes behind the end of an empty file. -/
theorem fallocate_no_bytes_grows :
    (fallocate (.ok ()) 0 8 0).run (FallocateHost.perform
      ⟨2 ^ 63 - 1, none, fun _ _ => true, 22, none⟩) [] = (.ok (), List.replicate 8 0) := by
  rw [fallocate_run]
  decide

end Virtiofsd.Darwin
