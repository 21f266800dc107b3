/-
  # The flags files are opened with

  The guest's open flags pass through several hands before they reach the host: OPEN and
  OPENDIR through `do_open` and `open_inode`, a CREATE that makes the file through
  `do_create` and `open_relative_to`.  On the way a copy is recorded for a later migration.
  Here these words are taken apart bit by bit and compared with each other.
-/
import Virtiofsd.Lib.Flags
import Virtiofsd.Passthrough.Operations

namespace Virtiofsd

open Lib PassthroughFs

/-! ## 1. The flags, bit by bit -/

section Bits

variable (i : Fin 32)

@[simp] theorem bit_O_ACCMODE : bit O_ACCMODE i = decide (i < 2) := by
  revert i; decide

@[simp] theorem bit_O_RDWR : bit O_RDWR i = decide (i = 1) := by
  revert i; decide

@[simp] theorem bit_O_CREAT : bit O_CREAT i = decide (i = 6) := by
  revert i; decide

@[simp] theorem bit_O_EXCL : bit O_EXCL i = decide (i = 7) := by
  revert i; decide

@[simp] theorem bit_O_TRUNC : bit O_TRUNC i = decide (i = 9) := by
  revert i; decide

@[simp] theorem bit_O_APPEND : bit O_APPEND i = decide (i = 10) := by
  revert i; decide

@[simp] theorem bit_O_DIRECT : bit O_DIRECT i = decide (i = 14) := by
  revert i; decide

@[simp] theorem bit_O_NOFOLLOW : bit O_NOFOLLOW i = decide (i = 17) := by
  revert i; decide

@[simp] theorem bit_O_NOATIME : bit O_NOATIME i = decide (i = 18) := by
  revert i; decide

@[simp] theorem bit_O_PATH : bit O_PATH i = decide (i = 21) := by
  revert i; decide

@[simp] theorem bit_O_TMPFILE_BIT : bit O_TMPFILE_BIT i = decide (i = 22) := by
  revert i; decide

@[simp] theorem bit_O_DIRECTORY : bit O_DIRECTORY i = decide (i = 16) := by
  revert i; decide

@[simp] theorem bit_O_CLOEXEC : bit O_CLOEXEC i = decide (i = 19) := by
  revert i; decide

end Bits

variable {cfg : Config} {writeback : Bool} {flags : UInt32}

/-- The access mode is the two lowest bits. -/
theorem accmode_eq_iff_bits {mode : UInt32} (hmode : mode &&& O_ACCMODE = mode) :
    flags &&& O_ACCMODE = mode ↔ bit flags 0 = bit mode 0 ∧ bit flags 1 = bit mode 1 := by
  rw [← hmode, word_ext_iff]
  simp only [bit_and, bit_O_ACCMODE]
  constructor
  · intro h
    exact ⟨by simpa using h 0, by simpa using h 1⟩
  · rintro ⟨h₀, h₁⟩ i
    by_cases hi₀ : i = 0
    · simpa [hi₀] using h₀
    · by_cases hi₁ : i = 1
      · simpa [hi₁] using h₁
      · have hi : ¬ i < 2 := by omega
        simp [hi]

theorem readOnly_iff_bits :
    flags &&& O_ACCMODE = O_RDONLY ↔ bit flags 0 = false ∧ bit flags 1 = false :=
  accmode_eq_iff_bits (by decide)

theorem writeOnly_iff_bits :
    flags &&& O_ACCMODE = O_WRONLY ↔ bit flags 0 = true ∧ bit flags 1 = false :=
  accmode_eq_iff_bits (by decide)

/-- **`open_inode`, bit by bit**: with a writeback cache, files opened for writing are opened
for reading too and do not append; direct I/O is only let through if allowed. -/
theorem bit_openInodeFlags (i : Fin 32) :
    bit (openInodeFlags cfg writeback flags) i =
      if i = 0 then bit flags 0 && !(writeback && !bit flags 1)
      else if i = 1 then bit flags 1 || (writeback && bit flags 0)
      else if i = 10 then bit flags 10 && !writeback
      else if i = 14 then bit flags 14 && cfg.allowDirectIo
      else if i = 19 then true
      else bit flags i := by
  unfold openInodeFlags
  simp only [writeOnly_iff_bits, bit_or, bit_O_CLOEXEC, apply_ite (bit · i), bit_and, bit_not,
    bit_O_DIRECT, bit_O_APPEND, bit_O_ACCMODE, bit_O_RDWR]
  -- one bit after another; at the end nobody has touched it
  by_cases hi₀ : i = 0
  · subst hi₀
    cases writeback <;> cases bit flags 0 <;> cases bit flags 1 <;> simp
  by_cases hi₁ : i = 1
  · subst hi₁
    cases writeback <;> cases bit flags 0 <;> cases bit flags 1 <;> simp
  have hacc : ¬ i < 2 := by omega
  by_cases hi₁₀ : i = 10
  · subst hi₁₀
    cases writeback <;> simp [hi₁]
  by_cases hi₁₄ : i = 14
  · subst hi₁₄
    cases cfg.allowDirectIo <;> simp [hi₁]
  by_cases hi₁₉ : i = 19
  · subst hi₁₉
    simp
  simp [hi₀, hi₁, hi₁₀, hi₁₄, hi₁₉, hacc]

/-- What `do_open` makes of the host's flags before it opens the inode. -/
def doOpenFlags (cfg : Config) (flags : UInt32) : UInt32 :=
  if cfg.cleanNoatime then flags &&& ~~~O_APPEND &&& ~~~O_NOATIME else flags &&& ~~~O_APPEND

theorem bit_doOpenFlags (i : Fin 32) :
    bit (doOpenFlags cfg flags) i =
      if i = 10 then false
      else if i = 18 then bit flags 18 && !cfg.cleanNoatime
      else bit flags i := by
  unfold doOpenFlags
  simp only [apply_ite (bit · i), bit_and, bit_not, bit_O_APPEND, bit_O_NOATIME]
  by_cases hi₁₀ : i = 10
  · simp [hi₁₀]
  by_cases hi₁₈ : i = 18
  · subst hi₁₈
    cases cfg.cleanNoatime <;> simp
  simp [hi₁₀, hi₁₈]

/-- The flags a CREATE opens the new file with. -/
def createFlags (flags : UInt32) : UInt32 :=
  O_NOFOLLOW ||| O_CLOEXEC ||| (flags &&& ~~~O_APPEND ||| O_CREAT ||| O_EXCL)

theorem bit_createFlags (i : Fin 32) :
    bit (createFlags flags) i =
      if i = 10 then false
      else if i = 6 ∨ i = 7 ∨ i = 17 ∨ i = 19 then true
      else bit flags i := by
  unfold createFlags
  simp only [bit_or, bit_and, bit_not, bit_O_NOFOLLOW, bit_O_CLOEXEC, bit_O_APPEND, bit_O_CREAT,
    bit_O_EXCL]
  grind

/-- `O_CREAT`, `O_EXCL` and `O_TRUNC`: they matter only when a file is opened. -/
def creationFlags : UInt32 := O_CREAT ||| O_EXCL ||| O_TRUNC

@[simp] theorem bit_creationFlags (i : Fin 32) :
    bit creationFlags i = decide (i = 6 ∨ i = 7 ∨ i = 9) := by
  revert i; decide

/-- Opening through `/proc/self/fd` has to follow a link: `reopen_fd_through_proc` clears
`O_NOFOLLOW`. -/
def followed (throughProc : Bool) (flags : UInt32) : UInt32 :=
  if throughProc then flags &&& ~~~O_NOFOLLOW else flags

theorem bit_followed {throughProc : Bool} (i : Fin 32) :
    bit (followed throughProc flags) i =
      if i = 17 then bit flags 17 && !throughProc else bit flags i := by
  unfold followed
  by_cases hi : i = 17
  · subst hi
    cases throughProc <;> simp
  · cases throughProc <;> simp [hi]

theorem bit_handleMigrationFlags (i : Fin 32) :
    bit (handleMigrationFlags flags) i =
      if i = 6 ∨ i = 7 ∨ i = 9 then false else bit flags i := by
  have h : handleMigrationFlags flags = flags &&& ~~~creationFlags := rfl
  rw [h, bit_and, bit_not, bit_creationFlags]
  by_cases hi : i = 6 ∨ i = 7 ∨ i = 9 <;> simp [hi]

/-- The flags `F_GETFL` shows of a descriptor: access mode, `O_APPEND`, `O_DIRECT`. -/
def statusFlags : UInt32 := O_ACCMODE ||| O_APPEND ||| O_DIRECT

@[simp] theorem bit_statusFlags (i : Fin 32) :
    bit statusFlags i = decide (i < 2 ∨ i = 10 ∨ i = 14) := by
  revert i; decide

/-- `open_inode` leaves access mode and `O_DIRECT` alone. -/
def ModeKept (cfg : Config) (writeback : Bool) (flags : UInt32) : Prop :=
  ¬ (writeback = true ∧ flags &&& O_ACCMODE = O_WRONLY) ∧
    (cfg.allowDirectIo = true ∨ flags &&& O_DIRECT = 0)

theorem modeKept_iff_bits :
    ModeKept cfg writeback flags ↔
      (writeback = true → bit flags 0 = true → bit flags 1 = true) ∧
        (cfg.allowDirectIo = true ∨ bit flags 14 = false) := by
  unfold ModeKept
  rw [writeOnly_iff_bits, and_flag_eq_zero bit_O_DIRECT]
  simp

section Comparisons

variable {p q : Bool}

/-- **An OPEN, reopened**: the recorded flags, opened again, against those of the descriptor. -/
theorem reopened_eq_opened_iff :
    followed q (handleMigrationFlags (doOpenFlags cfg flags)) =
        followed p (openInodeFlags cfg writeback (doOpenFlags cfg flags)) &&&
          ~~~creationFlags ↔
      ModeKept cfg writeback flags ∧ flags &&& O_CLOEXEC ≠ 0 ∧
        (flags &&& O_NOFOLLOW = 0 ∨ p = q) := by
  rw [modeKept_iff_bits, Ne, and_flag_eq_zero bit_O_CLOEXEC, and_flag_eq_zero bit_O_NOFOLLOW,
    word_ext_iff]
  simp only [bit_followed, bit_handleMigrationFlags, bit_and, bit_not, bit_openInodeFlags,
    bit_doOpenFlags, bit_creationFlags]
  constructor
  · intro h
    have h₀ := h 0
    have h₁₄ := h 14
    have h₁₇ := h 17
    have h₁₉ := h 19
    grind
  · rintro ⟨⟨hwrite, hdirect⟩, hcloexec, hfollow⟩ i
    grind

/-- The same for what the guest sees of a descriptor. -/
theorem reopened_status_iff :
    followed q (handleMigrationFlags (doOpenFlags cfg flags)) &&& statusFlags =
        followed p (openInodeFlags cfg writeback (doOpenFlags cfg flags)) &&&
          statusFlags ↔
      ModeKept cfg writeback flags := by
  rw [modeKept_iff_bits, word_ext_iff]
  simp only [bit_followed, bit_handleMigrationFlags, bit_and, bit_openInodeFlags,
    bit_doOpenFlags, bit_statusFlags]
  constructor
  · intro h
    have h₀ := h 0
    have h₁₄ := h 14
    grind
  · rintro ⟨hwrite, hdirect⟩ i
    grind

/-- **A CREATE, reopened.**  The new file is opened by name, with `O_NOFOLLOW`; a flag the
guest has not asked for is not recorded, but `O_APPEND` is. -/
theorem reopened_eq_created_iff :
    followed q (handleMigrationFlags flags) = createFlags flags &&& ~~~creationFlags ↔
      flags &&& O_CLOEXEC ≠ 0 ∧ flags &&& O_APPEND = 0 ∧ flags &&& O_NOFOLLOW ≠ 0 ∧ q = false := by
  rw [Ne, Ne, and_flag_eq_zero bit_O_CLOEXEC, and_flag_eq_zero bit_O_NOFOLLOW,
    and_flag_eq_zero bit_O_APPEND, word_ext_iff]
  simp only [bit_followed, bit_handleMigrationFlags, bit_and, bit_not, bit_createFlags,
    bit_creationFlags]
  constructor
  · intro h
    have h₁₀ := h 10
    have h₁₇ := h 17
    have h₁₉ := h 19
    grind
  · rintro ⟨hcloexec, happend, hfollow, hq⟩ i
    grind

theorem recreated_status_iff :
    followed q (handleMigrationFlags flags) &&& statusFlags =
        createFlags flags &&& statusFlags ↔
      flags &&& O_APPEND = 0 := by
  rw [and_flag_eq_zero bit_O_APPEND, word_ext_iff]
  simp only [bit_followed, bit_handleMigrationFlags, bit_and, bit_createFlags, bit_statusFlags]
  constructor
  · intro h
    have h₁₀ := h 10
    grind
  · intro happend i
    grind

/-- **CREATE and OPEN of one file**, the flags of the descriptors. -/
theorem created_eq_opened_iff :
    createFlags flags &&& ~~~creationFlags =
        followed p (openInodeFlags cfg writeback (doOpenFlags cfg flags)) &&&
          ~~~creationFlags ↔
      ModeKept cfg writeback flags ∧ (cfg.cleanNoatime = false ∨ flags &&& O_NOATIME = 0) ∧
        flags &&& O_NOFOLLOW ≠ 0 ∧ p = false := by
  rw [modeKept_iff_bits, Ne, and_flag_eq_zero bit_O_NOATIME, and_flag_eq_zero bit_O_NOFOLLOW,
    word_ext_iff]
  simp only [bit_followed, bit_and, bit_not, bit_openInodeFlags, bit_doOpenFlags, bit_createFlags,
    bit_creationFlags]
  constructor
  · intro h
    have h₀ := h 0
    have h₁₄ := h 14
    have h₁₇ := h 17
    have h₁₈ := h 18
    grind
  · rintro ⟨⟨hwrite, hdirect⟩, hnoatime, hfollow, hp⟩ i
    grind

/-- The same apart from `O_NOFOLLOW`, which says how the name of a file is resolved and
nothing about the open file. -/
theorem created_like_opened_iff :
    createFlags flags &&& ~~~(creationFlags ||| O_NOFOLLOW) =
        followed p (openInodeFlags cfg writeback (doOpenFlags cfg flags)) &&&
          ~~~(creationFlags ||| O_NOFOLLOW) ↔
      ModeKept cfg writeback flags ∧ (cfg.cleanNoatime = false ∨ flags &&& O_NOATIME = 0) := by
  rw [modeKept_iff_bits, and_flag_eq_zero bit_O_NOATIME, word_ext_iff]
  simp only [bit_followed, bit_and, bit_or, bit_not, bit_openInodeFlags, bit_doOpenFlags,
    bit_createFlags, bit_creationFlags, bit_O_NOFOLLOW]
  constructor
  · intro h
    have h₀ := h 0
    have h₁₄ := h 14
    have h₁₈ := h 18
    grind
  · rintro ⟨⟨hwrite, hdirect⟩, hnoatime⟩ i
    grind

/-- What they record for a migration. -/
theorem recorded_eq_iff :
    handleMigrationFlags flags =
        handleMigrationFlags (doOpenFlags cfg flags) ↔
      flags &&& O_APPEND = 0 ∧ (cfg.cleanNoatime = false ∨ flags &&& O_NOATIME = 0) := by
  rw [and_flag_eq_zero bit_O_NOATIME, and_flag_eq_zero bit_O_APPEND, word_ext_iff]
  simp only [bit_handleMigrationFlags, bit_doOpenFlags]
  constructor
  · intro h
    have h₁₀ := h 10
    have h₁₈ := h 18
    grind
  · rintro ⟨happend, hnoatime⟩ i
    grind

end Comparisons

/-! ## 2. Between architectures -/

section Architectures

variable {flags : UInt32}

theorem bit_foldl_of_not_mem {linuxFlags : UInt32} {i : Fin 32} {pairs : List (UInt32 × UInt32)}
    (hpairs : ∀ pair ∈ pairs, bit pair.2 i = false) :
    ∀ flags, bit (pairs.foldl
      (fun flags pair => if linuxFlags &&& pair.1 ≠ 0 then flags ||| pair.2 else flags) flags) i =
        bit flags i := by
  induction pairs with
  | nil => exact fun flags => rfl
  | cons pair pairs ih =>
    intro flags
    rw [List.foldl_cons, ih fun p hp => hpairs p (List.mem_cons_of_mem _ hp)]
    split
    · rw [bit_or, hpairs pair List.mem_cons_self, Bool.or_false]
    · rfl

theorem bit_archFlags (arch : GuestArch) (i : Fin 32) (hi : ¬ (i = 14 ∨ i = 15 ∨ i = 16 ∨ i = 17)) :
    bit arch.flags.direct i = false ∧ bit arch.flags.largefile i = false ∧
      bit arch.flags.directory i = false ∧ bit arch.flags.nofollow i = false := by
  cases arch <;> revert i <;> decide

/-- The translation between architectures moves four flags; none of them matters here. -/
theorem bit_linuxToLinuxOpenFlags {guest host : GuestArch} (i : Fin 32)
    (hi : ¬ (i = 14 ∨ i = 15 ∨ i = 16 ∨ i = 17)) :
    bit (linuxToLinuxOpenFlags flags guest host) i = bit flags i := by
  unfold linuxToLinuxOpenFlags
  split
  · rfl
  · obtain ⟨h₁, h₂, h₃, h₄⟩ := bit_archFlags host i hi
    rw [bit_foldl_of_not_mem]
    · obtain ⟨h₁, h₂, h₃, h₄⟩ := bit_archFlags guest i hi
      simp [ArchOpenFlags.mask, h₁, h₂, h₃, h₄]
    · simp [h₁, h₂, h₃, h₄]

/-- The four flags change places, in pairs. -/
theorem bit_moved {guest host : GuestArch} (hne : guest ≠ host) {w : UInt32}
    (hw : linuxToLinuxOpenFlags flags guest host = w) :
    bit w 14 = bit flags 16 ∧ bit w 15 = bit flags 17 ∧ bit w 16 = bit flags 14 ∧
      bit w 17 = bit flags 15 := by
  have h14 : ∀ i, bit 0o40000 i = decide (i = 14) := by decide
  have h15 : ∀ i, bit 0o100000 i = decide (i = 15) := by decide
  have h16 : ∀ i, bit 0o200000 i = decide (i = 16) := by decide
  have h17 : ∀ i, bit 0o400000 i = decide (i = 17) := by decide
  subst hw
  unfold linuxToLinuxOpenFlags
  rw [if_neg hne]
  cases guest <;> cases host <;> try exact absurd rfl hne
  all_goals
    simp only [GuestArch.flags, ArchOpenFlags.mask, List.foldl, ne_eq, and_flag_eq_zero h14,
      and_flag_eq_zero h15, and_flag_eq_zero h16, and_flag_eq_zero h17]
    cases bit flags 14 <;> cases bit flags 15 <;> cases bit flags 16 <;> cases bit flags 17 <;>
      simp [h14, h15, h16, h17]

/-- **Translating open flags to another Linux architecture and back changes nothing.** -/
theorem linuxToLinuxOpenFlags_back (flags : UInt32) (guest host : GuestArch) :
    linuxToLinuxOpenFlags (linuxToLinuxOpenFlags flags guest host) host guest = flags := by
  by_cases hne : guest = host
  · simp [linuxToLinuxOpenFlags, hne]
  · rw [word_ext_iff]
    intro i
    by_cases hi : i = 14 ∨ i = 15 ∨ i = 16 ∨ i = 17
    · generalize hw : linuxToLinuxOpenFlags flags guest host = w
      have hthere := bit_moved hne hw
      have hback := @bit_moved w _ _ (Ne.symm hne) _ rfl
      rcases hi with rfl | rfl | rfl | rfl <;> simp only [hback, hthere]
    · rw [bit_linuxToLinuxOpenFlags i hi, bit_linuxToLinuxOpenFlags i hi]

end Architectures

end Virtiofsd
