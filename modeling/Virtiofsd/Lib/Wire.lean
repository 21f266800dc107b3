/-
  # Records of little-endian integers

  A message on a wire is a sequence of fixed-width integers and byte strings.  `fieldBytes`
  writes a record of integers, `fieldAt` reads the integer at an offset
  (`fieldAt_fieldBytes`).

  Objects of a fixed size that are copied to and from the wire as they are, are `ByteValued`:
  their bytes and the object determine each other.

  A message of several records is cut at the lengths that the records themselves give
  (`Framing.records`); what was put together is taken apart again (`records_flatten`).
-/
import Mathlib.Data.List.Basic
import Mathlib.Logic.Equiv.Defs
import Mathlib.Tactic.Ring

namespace Lib

open List

/-! ## 1. Integers -/

/-- `w` bytes of a number, the lowest first. -/
def leBytes : Nat → Nat → List UInt8
  | 0, _ => []
  | w + 1, n => UInt8.ofNat n :: leBytes w (n / 256)

/-- The number of a sequence of bytes. -/
def ofLe : List UInt8 → Nat
  | [] => 0
  | b :: bs => b.toNat + 256 * ofLe bs

@[simp] theorem length_leBytes (w n : Nat) : (leBytes w n).length = w := by
  induction w generalizing n with
  | zero => rfl
  | succ w ih => simp [leBytes, ih]

/-- Reading a number back: what does not fit is cut off. -/
theorem ofLe_leBytes (w n : Nat) : ofLe (leBytes w n) = n % 256 ^ w := by
  induction w generalizing n with
  | zero => simp [leBytes, ofLe, Nat.mod_one]
  | succ w ih =>
    have hlow : (UInt8.ofNat n).toNat = n % 256 := by simp
    rw [leBytes, ofLe, hlow, ih, pow_succ']
    exact (Nat.mod_mul).symm

/-! ## 2. Records of integers -/

/-- A record: the width and the value of each field. -/
abbrev Fields := List (Nat × Nat)

/-- The bytes of a record. -/
def fieldBytes (fields : Fields) : List UInt8 := fields.flatMap fun f => leBytes f.1 f.2

/-- The integer of width `w` at an offset. -/
def fieldAt (bytes : List UInt8) (offset w : Nat) : Nat := ofLe ((bytes.drop offset).take w)

theorem length_fieldBytes (fields : Fields) :
    (fieldBytes fields).length = (fields.map Prod.fst).sum := by
  simp [fieldBytes, length_flatMap]

theorem fieldAt_append_right {l : List UInt8} {offset : Nat} (h : l.length ≤ offset)
    (bytes : List UInt8) (w : Nat) :
    fieldAt (l ++ bytes) offset w = fieldAt bytes (offset - l.length) w := by
  unfold fieldAt
  rw [drop_append, drop_of_length_le h, nil_append]

/-- **Reading a field back**, behind the fields before it. -/
theorem fieldAt_fieldBytes (before : Fields) (w n : Nat) (after : Fields) (rest : List UInt8) :
    fieldAt (fieldBytes (before ++ (w, n) :: after) ++ rest) (before.map Prod.fst).sum w =
      n % 256 ^ w := by
  have hbytes : fieldBytes (before ++ (w, n) :: after) ++ rest =
      fieldBytes before ++ (leBytes w n ++ (fieldBytes after ++ rest)) := by
    simp [fieldBytes]
  rw [hbytes, ← length_fieldBytes, fieldAt_append_right le_rfl, Nat.sub_self, fieldAt,
    drop_zero, take_left' (length_leBytes _ _), ofLe_leBytes]

/-- An integer that has the width of its field. -/
theorem ofNat_toNat_mod_64 (n : UInt64) : UInt64.ofNat (n.toNat % 256 ^ 8) = n := by
  rw [Nat.mod_eq_of_lt (show n.toNat < 256 ^ 8 from n.toNat_lt), UInt64.ofNat_toNat]

theorem ofNat_toNat_mod_32 (n : UInt32) : UInt32.ofNat (n.toNat % 256 ^ 4) = n := by
  rw [Nat.mod_eq_of_lt (show n.toNat < 256 ^ 4 from n.toNat_lt), UInt32.ofNat_toNat]

theorem ofNat_toNat_mod_8 (n : UInt8) : UInt32.ofNat (n.toNat % 256 ^ 1) = n.toUInt32 := by
  rw [Nat.mod_eq_of_lt (show n.toNat < 256 ^ 1 from n.toNat_lt), UInt32.ofNat_uInt8ToNat]

/-! ## 3. Alignment -/

/-- Rounded up to a multiple of 8: `(n + 7) & !7`. -/
def roundUp8 (n : Nat) : Nat := (n + 7) / 8 * 8

theorem le_roundUp8 (n : Nat) : n ≤ roundUp8 n := by
  unfold roundUp8
  omega

theorem roundUp8_lt (n : Nat) : roundUp8 n < n + 8 := by
  unfold roundUp8
  omega

theorem dvd_roundUp8 (n : Nat) : 8 ∣ roundUp8 n := ⟨_, Nat.mul_comm _ _⟩

/-! ## 4. Objects of a fixed size -/

theorem ofLe_lt (bytes : List UInt8) : ofLe bytes < 256 ^ bytes.length := by
  induction bytes with
  | nil => simp [ofLe]
  | cons b bs ih =>
    have hb : b.toNat < 256 := b.toNat_lt
    rw [ofLe, length_cons, pow_succ]
    omega

/-- Writing a number back. -/
theorem leBytes_ofLe (bytes : List UInt8) : leBytes bytes.length (ofLe bytes) = bytes := by
  induction bytes with
  | nil => rfl
  | cons b bs ih =>
    have hb : b.toNat < 256 := b.toNat_lt
    have hlow : UInt8.ofNat (b.toNat + 256 * ofLe bs) = b := by
      apply UInt8.toNat.inj
      rw [UInt8.toNat_ofNat']
      omega
    have hhigh : (b.toNat + 256 * ofLe bs) / 256 = ofLe bs := by omega
    rw [ofLe, length_cons, leBytes, hlow, hhigh, ih]

/-- Byte strings of a fixed length. -/
abbrev Bytes (n : Nat) := { bytes : List UInt8 // bytes.length = n }

/-- **Objects that are their bytes**: every byte string of the size is an object, and every
object is one byte string. -/
class ByteValued (T : Type) where
  size : Nat
  asSlice : T → List UInt8
  fromSlice : List UInt8 → T
  length_asSlice : ∀ t, (asSlice t).length = size
  fromSlice_asSlice : ∀ t, fromSlice (asSlice t) = t
  asSlice_fromSlice : ∀ bytes, bytes.length = size → asSlice (fromSlice bytes) = bytes

namespace ByteValued

attribute [simp] length_asSlice fromSlice_asSlice

variable {S T : Type} [ByteValued S] [ByteValued T]

instance : ByteValued UInt32 where
  size := 4
  asSlice n := leBytes 4 n.toNat
  fromSlice bytes := .ofNat (ofLe bytes)
  length_asSlice n := length_leBytes 4 n.toNat
  fromSlice_asSlice n := by rw [ofLe_leBytes, ofNat_toNat_mod_32]
  asSlice_fromSlice bytes h := by
    have hlt : ofLe bytes < 2 ^ 32 := by simpa [h] using ofLe_lt bytes
    rw [UInt32.toNat_ofNat', Nat.mod_eq_of_lt hlt, ← h, leBytes_ofLe]

instance : ByteValued UInt64 where
  size := 8
  asSlice n := leBytes 8 n.toNat
  fromSlice bytes := .ofNat (ofLe bytes)
  length_asSlice n := length_leBytes 8 n.toNat
  fromSlice_asSlice n := by rw [ofLe_leBytes, ofNat_toNat_mod_64]
  asSlice_fromSlice bytes h := by
    have hlt : ofLe bytes < 2 ^ 64 := by simpa [h] using ofLe_lt bytes
    rw [UInt64.toNat_ofNat', Nat.mod_eq_of_lt hlt, ← h, leBytes_ofLe]

/-- One object behind the other. -/
instance : ByteValued (S × T) where
  size := size S + size T
  asSlice p := asSlice p.1 ++ asSlice p.2
  fromSlice bytes := (fromSlice (bytes.take (size S)), fromSlice (bytes.drop (size S)))
  length_asSlice p := by simp
  fromSlice_asSlice p := by
    rw [take_left' (length_asSlice p.1), drop_left' (length_asSlice p.1)]
    simp
  asSlice_fromSlice bytes h := by
    rw [asSlice_fromSlice _ (by simp [h]), asSlice_fromSlice _ (by simp [h]),
      take_append_drop]

instance (n : Nat) : ByteValued (Bytes n) where
  size := n
  asSlice := Subtype.val
  fromSlice bytes := ⟨(bytes ++ List.replicate n 0).take n, by simp⟩
  length_asSlice := Subtype.property
  fromSlice_asSlice t := Subtype.ext (take_left' t.property)
  asSlice_fromSlice bytes h := take_left' h

/-- A structure with the layout of `S`. -/
@[reducible] def ofEquiv (e : T ≃ S) : ByteValued T where
  size := size S
  asSlice t := asSlice (e t)
  fromSlice bytes := e.symm (fromSlice bytes)
  length_asSlice t := length_asSlice (e t)
  fromSlice_asSlice t := by simp
  asSlice_fromSlice bytes h := by simpa using asSlice_fromSlice bytes h

/-- What begins with an object, by the object and the rest. -/
theorem eq_append_iff {t : T} {bytes rest : List UInt8} :
    (size T ≤ bytes.length ∧ fromSlice (bytes.take (size T)) = t ∧ bytes.drop (size T) = rest) ↔
      bytes = asSlice t ++ rest := by
  constructor
  · rintro ⟨hle, rfl, rfl⟩
    rw [asSlice_fromSlice _ (by simp [hle]), take_append_drop]
  · rintro rfl
    refine ⟨by simp, ?_, drop_left' (length_asSlice t)⟩
    rw [take_left' (length_asSlice t), fromSlice_asSlice]

end ByteValued

/-! ## 5. Sequences of records -/

/-- **A format of records**: the size of the part that every record has, and the length of a
record as read from what begins with it. -/
structure Framing where
  fixed : Nat
  lengthOf : List UInt8 → Nat

namespace Framing

variable (f : Framing)

/-- A complete record: it gives its own length, whatever follows. -/
structure IsRecord (bytes : List UInt8) : Prop where
  nonempty : bytes ≠ []
  fixed : f.fixed ≤ bytes.length
  lengthOf : ∀ rest, f.lengthOf (bytes ++ rest) = bytes.length

/-- The records in a byte string from the position `start` on, as long as they are complete;
at most `fuel` many. -/
def recordsFrom : Nat → Nat → List UInt8 → List (Nat × List UInt8)
  | 0, _, _ => []
  | fuel + 1, start, bytes =>
    if bytes.length < f.fixed then []
    else if bytes.isEmpty ∨ bytes.length < f.lengthOf bytes then []
    else (start, bytes.take (f.lengthOf bytes)) ::
      recordsFrom fuel (start + f.lengthOf bytes) (bytes.drop (f.lengthOf bytes))

/-- **The complete records of a byte string**, each with its position. -/
def records (bytes : List UInt8) : List (Nat × List UInt8) := f.recordsFrom bytes.length 0 bytes

/-- Byte strings one after the other, each with its position. -/
def placed : Nat → List (List UInt8) → List (Nat × List UInt8)
  | _, [] => []
  | start, bytes :: rest => (start, bytes) :: placed (start + bytes.length) rest

variable (l : List (List UInt8))

@[simp] theorem map_snd_placed : ∀ start,
    (placed start l).map Prod.snd = l := by
  induction l with
  | nil => exact fun _ => rfl
  | cons bytes rest ih => exact fun start => congrArg _ (ih _)

/-- Records of aligned lengths are at aligned positions. -/
theorem dvd_of_mem_placed {d : Nat} : ∀ {start : Nat}, d ∣ start →
    (∀ bytes ∈ l, d ∣ bytes.length) → ∀ x ∈ placed start l, d ∣ x.1 := by
  induction l with
  | nil => exact fun _ _ x hx => absurd hx not_mem_nil
  | cons bytes rest ih =>
    intro start hstart hall x hx
    rcases mem_cons.mp hx with rfl | hx
    · exact hstart
    · exact ih (Nat.dvd_add hstart (hall bytes mem_cons_self))
        (fun b hb => hall b (mem_cons_of_mem _ hb)) x hx

variable {f}

theorem recordsFrom_flatten : ∀ {fuel start : Nat}, l.length ≤ fuel →
    (∀ bytes ∈ l, f.IsRecord bytes) → f.recordsFrom fuel start l.flatten = placed start l := by
  induction l with
  | nil =>
    intro fuel start _ _
    cases fuel <;> simp [recordsFrom, placed]
  | cons bytes rest ih =>
    intro fuel start hfuel hall
    obtain ⟨hne, hfixed, hlen⟩ := hall bytes mem_cons_self
    have hrest := fun b hb => hall b (mem_cons_of_mem _ hb)
    cases fuel with
    | zero => simp at hfuel
    | succ fuel =>
      have hsome : ¬ ((bytes ++ rest.flatten).isEmpty ∨
          (bytes ++ rest.flatten).length < bytes.length) := by
        simp [hne]
      rw [flatten_cons, recordsFrom, hlen, if_neg (by rw [length_append]; omega),
        if_neg hsome, take_left, drop_left, ih (by simpa using hfuel) hrest, placed]

theorem length_le_length_flatten :
    (∀ bytes ∈ l, bytes ≠ []) → l.length ≤ l.flatten.length := by
  induction l with
  | nil => simp
  | cons bytes rest ih =>
    intro h
    have hpos := length_pos_iff.mpr (h bytes mem_cons_self)
    have hrest := ih fun b hb => h b (mem_cons_of_mem _ hb)
    rw [flatten_cons, length_append, length_cons]
    omega

/-- **Records that were put together are taken apart again.** -/
theorem records_flatten {l : List (List UInt8)} (h : ∀ bytes ∈ l, f.IsRecord bytes) :
    f.records l.flatten = placed 0 l :=
  recordsFrom_flatten l (length_le_length_flatten l fun b hb => (h b hb).nonempty) h

end Framing

end Lib
