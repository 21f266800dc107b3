/-
  # File handles on the wire

  The kernel writes a handle into the first bytes of an array of `MAX_HANDLE_SZ`; a migration
  sends only these bytes, and the destination puts them into an array of its own.  The derived
  ordering of `FileHandle`, the key of `by_handle`, compares the WHOLE array, so a handle that
  came over the wire leads to the same inode as the destination's own only because both have
  zeros behind their bytes.
-/
import Virtiofsd.InodeStore

namespace Virtiofsd

/-- `oslib::MAX_HANDLE_SZ`. -/
def MAX_HANDLE_SZ : Nat := 128

/-- **`oslib::CFileHandle`**: an array, of which the first `handle_bytes` are the handle. -/
structure CFileHandle where
  handleBytes : Nat
  handleType : Int
  fHandle : List UInt8
  length_fHandle : fHandle.length = MAX_HANDLE_SZ

namespace CFileHandle

/-- `as_bytes`; beyond the array the slice panics. -/
def asBytes (c : CFileHandle) : Option (List UInt8) :=
  if c.handleBytes ≤ MAX_HANDLE_SZ then some (c.fHandle.take c.handleBytes) else none

/-- `TryFrom<&SerializableFileHandle>`. -/
def tryFrom (sfh : SerializableFileHandle) : Except String CFileHandle :=
  if h : sfh.handle.length > MAX_HANDLE_SZ then .error "File handle too long"
  else .ok
    { handleBytes := sfh.handle.length
      handleType := sfh.handleType
      fHandle := sfh.handle ++ List.replicate (MAX_HANDLE_SZ - sfh.handle.length) 0
      length_fHandle := by simp; omega }

/-- The handle as the rest of the development sees it: its type and its bytes. -/
def view (c : CFileHandle) (mntId : Nat) : FileHandle :=
  ⟨mntId, c.handleType, c.fHandle.take c.handleBytes⟩

/-- `name_to_handle_at` writes into an array of zeros, and says how many bytes it wrote. -/
structure FromKernel (c : CFileHandle) : Prop where
  fits : c.handleBytes ≤ MAX_HANDLE_SZ
  zeros : c.fHandle.drop c.handleBytes = List.replicate (MAX_HANDLE_SZ - c.handleBytes) 0

end CFileHandle

/-- `FileHandle`, with the C structure in it. -/
structure HostFileHandle where
  mntId : Nat
  handle : CFileHandle

/-- The derived `Ord` of `FileHandle` and `CFileHandle`: field by field. -/
def HostFileHandle.cmp (f g : HostFileHandle) : Ordering :=
  (compare f.mntId g.mntId).then <| (compare f.handle.handleBytes g.handle.handleBytes).then <|
    (compare f.handle.handleType g.handle.handleType).then <|
      compare f.handle.fHandle g.handle.fHandle

/-- `From<&FileHandle> for SerializableFileHandle`. -/
def HostFileHandle.toSerializable (f : HostFileHandle) : Option SerializableFileHandle :=
  f.handle.asBytes.map fun bytes => ⟨f.mntId, f.handle.handleType, bytes⟩

/-- `SerializableFileHandle::to_openable`, with a mount FD of the mount `mntId`. -/
def SerializableFileHandle.toOpenable (sfh : SerializableFileHandle) (mntId : Nat) :
    Except String HostFileHandle :=
  (CFileHandle.tryFrom sfh).map fun c => ⟨mntId, c⟩

variable {c c' : CFileHandle}

theorem CFileHandle.ext (hbytes : c.handleBytes = c'.handleBytes)
    (htype : c.handleType = c'.handleType) (h : c.fHandle = c'.fHandle) : c = c' := by
  cases c
  cases c'
  simp_all

theorem CFileHandle.FromKernel.length_take (h : c.FromKernel) :
    (c.fHandle.take c.handleBytes).length = c.handleBytes := by
  rw [List.length_take, c.length_fHandle, Nat.min_eq_left h.fits]

/-- **Type and bytes are all there is to a handle of the kernel.** -/
theorem CFileHandle.FromKernel.eq_iff (h : c.FromKernel) (h' : c'.FromKernel) (mntId : Nat) :
    c = c' ↔ c.view mntId = c'.view mntId := by
  refine ⟨fun heq => heq ▸ rfl, fun hview => ?_⟩
  obtain ⟨-, htype, hbytes⟩ := FileHandle.mk.inj hview
  have hlen : c.handleBytes = c'.handleBytes := by
    rw [← h.length_take, hbytes, h'.length_take]
  refine CFileHandle.ext hlen htype ?_
  rw [← List.take_append_drop c.handleBytes c.fHandle, hbytes, h.zeros, hlen, ← h'.zeros,
    List.take_append_drop]

theorem HostFileHandle.cmp_eq_iff {f g : HostFileHandle} : f.cmp g = .eq ↔ f = g := by
  simp only [HostFileHandle.cmp, Ordering.then_eq_eq, Std.LawfulEqOrd.compare_eq_iff_eq]
  constructor
  · rintro ⟨hm, hb, ht, hf⟩
    cases f
    cases g
    cases CFileHandle.ext hb ht hf
    cases hm
    rfl
  · rintro rfl
    exact ⟨rfl, rfl, rfl, rfl⟩

/-- **A handle survives the wire**: with a mount FD of any mount it is the same handle on that
mount, and as a key it is equal to exactly those that the kernel there makes with the same type
and bytes.  A serialized handle that is too long is refused. -/
theorem file_handle_survives (h : c.FromKernel) (mntId mntId' : Nat) :
    (HostFileHandle.mk mntId c).toSerializable = some (c.view mntId).toSerializable ∧
    (c.view mntId).toSerializable.toOpenable mntId' = .ok ⟨mntId', c⟩ ∧
    (∀ own : CFileHandle, own.FromKernel →
      ((HostFileHandle.mk mntId' c).cmp ⟨mntId', own⟩ = .eq ↔ c.view mntId' = own.view mntId')) ∧
    ∀ sfh : SerializableFileHandle, MAX_HANDLE_SZ < sfh.handle.length →
      sfh.toOpenable mntId' = .error "File handle too long" := by
  refine ⟨?_, ?_, fun own hown => ?_, fun sfh hlong => ?_⟩
  · rw [HostFileHandle.toSerializable, CFileHandle.asBytes, if_pos h.fits]
    rfl
  · have hlen : (c.view mntId).toSerializable.handle.length = c.handleBytes := h.length_take
    rw [SerializableFileHandle.toOpenable, CFileHandle.tryFrom,
      dif_neg (by rw [hlen]; exact h.fits.not_gt)]
    refine congrArg (fun c => Except.ok (HostFileHandle.mk mntId' c)) (CFileHandle.ext hlen rfl ?_)
    dsimp only
    rw [hlen, ← h.zeros]
    exact List.take_append_drop ..
  · rw [HostFileHandle.cmp_eq_iff, HostFileHandle.mk.injEq, ← h.eq_iff hown]
    exact and_iff_right rfl
  · rw [SerializableFileHandle.toOpenable, CFileHandle.tryFrom, dif_pos hlong]
    rfl

def sampleHandle : CFileHandle := ⟨2, 1, 7 :: 9 :: List.replicate 126 0, rfl⟩

theorem file_handle_survives_sample :
    (⟨5, 1, [7, 9]⟩ : SerializableFileHandle).toOpenable 8 = .ok ⟨8, sampleHandle⟩ :=
  (file_handle_survives (c := sampleHandle) ⟨by decide, rfl⟩ 5 8).2.1

end Virtiofsd
