/-
  # A read-only share never changes the host

  `HostCall.Harmless` says which calls cannot change the shared tree: all opens have to be
  for reading only, or, on Linux, with `O_PATH`.  Most requests only make calls that are
  harmless on every host (`HostCall.Quiet`).  What is left is the path from the guest's open
  flags to the host's `open(2)`, with the translation of the flags, the writeback cache and
  the clearing of capabilities on the way.
-/
import Virtiofsd.Passthrough.Darwin
import Virtiofsd.Passthrough.Opens
import Virtiofsd.Passthrough.Quiet

namespace Virtiofsd

open Lib PassthroughFsRo HostKind

variable {α : Type}

/-! ## 1. Calls that change nothing -/

/-- **An open that changes nothing**: for reading only, and it neither makes, truncates nor
replaces a file.  An open with `O_PATH` ignores all that. -/
def HostKind.ReadsOnly : HostKind → UInt32 → Prop
  | .linux, flags => flags &&& O_PATH ≠ 0 ∨
      (flags &&& O_ACCMODE = O_RDONLY ∧ flags &&& O_CREAT = 0 ∧ flags &&& O_TRUNC = 0 ∧
        flags &&& O_TMPFILE_BIT = 0)
  | .darwin, flags => flags &&& Darwin.O_ACCMODE = Darwin.O_RDONLY ∧
      flags &&& Darwin.O_CREAT = 0 ∧ flags &&& Darwin.O_TRUNC = 0

/-- `libc` calls that change nothing.  An extended attribute cannot be removed through a
descriptor opened with `O_PATH`. -/
def LibcCall.Harmless (kind : HostKind) (pathOnly : Fd → Prop) : LibcCall → Prop
  | .fremovexattr fd _ => kind = .linux ∧ pathOnly fd
  | .fsync _ => True
  | .fdatasync _ => True
  | .syncfs _ => True
  | .setNocache _ => True
  | .close _ => True
  | _ => False

/-- **A call that has no effect on the shared tree.**  `pathOnly` are the descriptors opened
with `O_PATH`. -/
def HostCall.Harmless (kind : HostKind) (pathOnly : Fd → Prop) : HostCall → Prop
  | .openat _ _ flags _ => kind.ReadsOnly flags
  | .openRoot flags => kind.ReadsOnly flags
  | .reopen _ flags => kind.ReadsOnly flags
  | .openByHandle _ flags => kind.ReadsOnly flags
  | .pwritev .. => False
  | .fchmodPath .. => False
  | .copyFileRange .. => False
  | .libc c => c.Harmless kind pathOnly
  | _ => True

/-- Actions on the shared state of the daemon are harmless. -/
def NeutralAct.Harmless (kind : HostKind) (pathOnly : Fd → Prop) : NeutralAct → Prop
  | .host c => c.Harmless kind pathOnly
  | .query _ => True

def Act.Harmless (kind : HostKind) (pathOnly : Fd → Prop) : Act → Prop
  | .neutral a => a.Harmless kind pathOnly
  | .ref _ => True

def SessionAct.Harmless (kind : HostKind) (pathOnly : Fd → Prop) : SessionAct → Prop
  | .act a => a.Harmless kind pathOnly
  | _ => True

/-- The host's promise about `pathOnly`: descriptors opened with `O_PATH` are among them. -/
def NeutralAct.MarksPaths (kind : HostKind) (pathOnly : Fd → Prop) (a : NeutralAct) (r : a.Ans) :
    Prop :=
  kind = .linux → ∀ fd c, openedFd a r = some (fd, c) → c.openFlags &&& O_PATH ≠ 0 → pathOnly fd

def Act.MarksPaths (kind : HostKind) (pathOnly : Fd → Prop) : (a : Act) → a.Ans → Prop
  | .neutral a, r => a.MarksPaths kind pathOnly r
  | .ref _, _ => True

def SessionAct.MarksPaths (kind : HostKind) (pathOnly : Fd → Prop) : (a : SessionAct) → a.Ans → Prop
  | .act a, r => a.MarksPaths kind pathOnly r
  | _, _ => True

/-! ## 2. Quiet calls on both hosts -/

/-- A translation sets a bit only for a flag that is there. -/
theorem bit_foldl_addFlag {linuxFlags flag : UInt32} {i : Fin 32}
    {table : List (UInt32 × UInt32)}
    (htable : table.all (fun pair => !bit pair.2 i || pair.1 == flag) = true)
    (hflag : ¬ linuxFlags &&& flag = flag) :
    ∀ flags, bit flags i = false → bit (table.foldl (addFlag linuxFlags) flags) i = false := by
  induction table with
  | nil => exact fun flags h => h
  | cons pair table ih =>
    intro flags h
    rw [List.all_cons, Bool.and_eq_true] at htable
    refine ih htable.2 _ ?_
    unfold addFlag
    split
    · rename_i hpair
      rw [bit_or, h, Bool.false_or]
      cases hbit : bit pair.2 i with
      | false => rfl
      | true =>
        have heq : pair.1 = flag := by simpa [hbit] using htable.1
        rw [heq] at hpair
        exact absurd hpair hflag
    · exact h

theorem readsOnly_linux_iff_bits {flags : UInt32} :
    linux.ReadsOnly flags ↔ bit flags 21 = true ∨
      ((bit flags 0 = false ∧ bit flags 1 = false) ∧ bit flags 6 = false ∧ bit flags 9 = false ∧
        bit flags 22 = false) := by
  simp only [HostKind.ReadsOnly]
  rw [Ne, and_flag_eq_zero bit_O_PATH, readOnly_iff_bits, and_flag_eq_zero bit_O_CREAT,
    and_flag_eq_zero bit_O_TRUNC, and_flag_eq_zero bit_O_TMPFILE_BIT, Bool.not_eq_false]

theorem bit_darwin_creat (i : Fin 32) : bit Darwin.O_CREAT i = decide (i = 9) := by
  revert i; decide

theorem bit_darwin_trunc (i : Fin 32) : bit Darwin.O_TRUNC i = decide (i = 10) := by
  revert i; decide

theorem readsOnly_darwin_iff_bits {flags : UInt32} :
    darwin.ReadsOnly flags ↔
      (bit flags 0 = false ∧ bit flags 1 = false) ∧ bit flags 9 = false ∧ bit flags 10 = false := by
  simp only [HostKind.ReadsOnly]
  rw [show Darwin.O_ACCMODE = O_ACCMODE from rfl, show Darwin.O_RDONLY = O_RDONLY from rfl,
    readOnly_iff_bits, and_flag_eq_zero bit_darwin_creat, and_flag_eq_zero bit_darwin_trunc]

/-- A quiet word has four bits at most. -/
theorem QuietFlags.bit_eq_false {flags : UInt32} (h : QuietFlags flags) (i : Fin 32)
    (hi : bit quietFlags i = false) : bit flags i = false := by
  have hbit := word_ext_iff.mp h i
  rw [bit_and, bit_not, hi, bit_zero] at hbit
  simpa using hbit

theorem QuietFlags.readsOnly_linux {flags : UInt32} (h : QuietFlags flags) :
    linux.ReadsOnly flags := by
  refine readsOnly_linux_iff_bits.mpr (.inr ⟨⟨?_, ?_⟩, ?_, ?_, ?_⟩)
  · exact h.bit_eq_false 0 (by decide)
  · exact h.bit_eq_false 1 (by decide)
  · exact h.bit_eq_false 6 (by decide)
  · exact h.bit_eq_false 9 (by decide)
  · exact h.bit_eq_false 22 (by decide)

/-- A flag that a word does not have is not added. -/
theorem and_flag_ne_of_bit {flags flag : UInt32} {k : Fin 32} (hflag : bit flag k = true)
    (h : bit flags k = false) : ¬ flags &&& flag = flag := by
  intro heq
  have hbit := word_ext_iff.mp heq k
  rw [bit_and, hflag, h] at hbit
  cases hbit

theorem QuietFlags.readsOnly_darwinWord {flags : UInt32} (h : QuietFlags flags) :
    darwin.ReadsOnly (darwinWord flags) := by
  have hcreat : ¬ flags &&& O_CREAT = O_CREAT :=
    and_flag_ne_of_bit (by decide) (h.bit_eq_false 6 (by decide))
  have htrunc : ¬ flags &&& O_TRUNC = O_TRUNC :=
    and_flag_ne_of_bit (by decide) (h.bit_eq_false 9 (by decide))
  have h₀ : bit (flags &&& O_ACCMODE) 0 = false := by simp [h.bit_eq_false 0 (by decide)]
  have h₁ : bit (flags &&& O_ACCMODE) 1 = false := by simp [h.bit_eq_false 1 (by decide)]
  refine readsOnly_darwin_iff_bits.mpr ⟨⟨?_, ?_⟩, ?_, ?_⟩
  · exact bit_foldl_addFlag rfl hcreat _ h₀
  · exact bit_foldl_addFlag rfl hcreat _ h₁
  · exact bit_foldl_addFlag rfl hcreat _ (by simp)
  · exact bit_foldl_addFlag rfl htrunc _ (by simp)

theorem readsOnly_darwin_or {flags more : UInt32} (h : darwin.ReadsOnly flags)
    (hmore : darwin.ReadsOnly more) : darwin.ReadsOnly (flags ||| more) := by
  rw [readsOnly_darwin_iff_bits] at h hmore ⊢
  simp [h, hmore]

theorem readsOnly_darwin_and {flags mask : UInt32} (h : darwin.ReadsOnly flags) :
    darwin.ReadsOnly (flags &&& mask) := by
  rw [readsOnly_darwin_iff_bits] at h ⊢
  simp [h]

section Policy

variable {pathOnly : Fd → Prop}

theorem LibcCall.Quiet.harmless {c : LibcCall} (h : c.Quiet) (kind : HostKind) :
    c.Harmless kind pathOnly := by
  cases c <;> first | exact h.elim | trivial

/-- A quiet call is harmless on Linux as it is. -/
theorem HostCall.Quiet.harmless_linux {c : HostCall} (h : c.Quiet) :
    c.Harmless .linux pathOnly := by
  cases c with
  | openat | openRoot | reopen | openByHandle => exact QuietFlags.readsOnly_linux h
  | libc c => exact LibcCall.Quiet.harmless h .linux
  | pwritev | fchmodPath | copyFileRange => exact h.elim
  | _ => trivial

/-- On Darwin it is harmless with Darwin's flags. -/
theorem HostCall.Quiet.harmless_darwin {c : HostCall} (h : c.Quiet) :
    c.onDarwin.Harmless .darwin pathOnly := by
  cases c with
  | openat dir name flags mode =>
    have hword : darwin.ReadsOnly (darwinWord flags) := QuietFlags.readsOnly_darwinWord h
    exact readsOnly_darwin_or (readsOnly_darwin_or (readsOnly_darwin_and hword)
      (by simp only [HostKind.ReadsOnly]; decide)) (by simp only [HostKind.ReadsOnly]; decide)
  | openRoot | reopen | openByHandle => exact QuietFlags.readsOnly_darwinWord h
  | libc c => exact LibcCall.Quiet.harmless h .darwin
  | pwritev | fchmodPath | copyFileRange => exact h.elim
  | _ => trivial

/-- **Programs that change nothing** on a host of a kind. -/
abbrev Harmlessly (kind : HostKind) (pathOnly : Fd → Prop) (p : NeutralM α) (Q : α → Prop) : Prop :=
  Keeps (NeutralAct.Harmless kind pathOnly) (NeutralAct.MarksPaths kind pathOnly) p Q

abbrev FsHarmlessly (kind : HostKind) (pathOnly : Fd → Prop) (p : FsM α) : Prop :=
  Keeps (Act.Harmless kind pathOnly) (Act.MarksPaths kind pathOnly) p fun _ => True

abbrev SessionHarmlessly (kind : HostKind) (pathOnly : Fd → Prop) (p : SessionM α) : Prop :=
  Keeps (SessionAct.Harmless kind pathOnly) (SessionAct.MarksPaths kind pathOnly) p fun _ => True

theorem lift_harmless {kind : HostKind} {p : NeutralM α}
    (h : Harmlessly kind pathOnly p fun _ => True) :
    FsHarmlessly kind pathOnly (liftM p : FsM α) :=
  h.mapAct (fun _ ha => ha) fun _ _ hr => hr

theorem session_harmless {kind : HostKind} {p : FsM α} (h : FsHarmlessly kind pathOnly p) :
    SessionHarmlessly kind pathOnly (liftM p : SessionM α) :=
  h.mapAct (fun _ ha => ha) fun _ _ hr => hr

theorem NeutralAct.Quiet.harmless_linux {a : NeutralAct} (h : a.Quiet) :
    a.Harmless .linux pathOnly := by
  cases a with
  | host c => exact HostCall.Quiet.harmless_linux h
  | query q => trivial

theorem Act.Quiet.harmless_linux {a : Act} (h : a.Quiet) : a.Harmless .linux pathOnly := by
  cases a with
  | neutral a => exact NeutralAct.Quiet.harmless_linux h
  | ref r => trivial

theorem Act.Quiet.harmless_darwin {a : Act} (h : a.Quiet) :
    a.onDarwin.Harmless .darwin pathOnly := by
  rcases a with (c | q) | r
  · exact HostCall.Quiet.harmless_darwin h
  · trivial
  · trivial

theorem SessionAct.Quiet.harmless_linux {a : SessionAct} (h : a.Quiet) :
    a.Harmless .linux pathOnly := by
  cases a with
  | act a => exact Act.Quiet.harmless_linux h
  | _ => trivial

theorem SessionAct.Quiet.harmless_darwin {a : SessionAct} (h : a.Quiet) :
    a.onDarwin.Harmless .darwin pathOnly := by
  cases a with
  | act a => exact Act.Quiet.harmless_darwin h
  | _ => trivial

/-- A quiet request, on both hosts. -/
theorem FsQuietly.harmless_linux {p : FsM α} (h : FsQuietly p) : FsHarmlessly .linux pathOnly p :=
  h.weaken (fun _ ha => Act.Quiet.harmless_linux ha) fun _ _ _ => trivial

theorem FsQuietly.harmless_darwin {p : FsM α} (h : FsQuietly p) :
    FsHarmlessly .darwin pathOnly (FsM.onDarwin p) :=
  h.mapAct (fun _ ha => Act.Quiet.harmless_darwin ha) fun _ _ _ => trivial

theorem SessionQuietly.harmless_linux {p : SessionM α} (h : SessionQuietly p) :
    SessionHarmlessly .linux pathOnly p :=
  h.weaken (fun _ ha => SessionAct.Quiet.harmless_linux ha) fun _ _ _ => trivial

theorem SessionQuietly.harmless_darwin {p : SessionM α} (h : SessionQuietly p) :
    SessionHarmlessly .darwin pathOnly (SessionM.onDarwin p) :=
  h.mapAct (fun _ ha => SessionAct.Quiet.harmless_darwin ha) fun _ _ _ => trivial

end Policy

/-! ## 3. From the guest's flags to the host's -/

/-- The flags with which an open goes on. -/
def PassthroughFsRo.ReadOnlyOpen.flags : PassthroughFsRo.ReadOnlyOpen → UInt32
  | .open flags => flags
  | .openExisting flags => flags

variable {flags : UInt32}

/-- **What `read_only_open` lets through**: an `O_PATH`, if the host keeps it, or an open of an
existing file for reading. -/
theorem of_readOnlyOpenOn {keeps : Bool} {x : ReadOnlyOpen}
    (h : readOnlyOpenOn keeps flags = .ok x) :
    (keeps = true ∧ bit x.flags 21 = true) ∨
      ((bit x.flags 0 = false ∧ bit x.flags 1 = false) ∧ bit x.flags 6 = false ∧
        bit x.flags 9 = false ∧ bit x.flags 22 = false) := by
  unfold readOnlyOpenOn at h
  simp only [ne_eq, and_flag_eq_zero bit_O_PATH, readOnly_iff_bits,
    and_flag_eq_zero bit_O_TMPFILE_BIT, and_flag_eq_zero bit_O_TRUNC,
    and_flag_eq_zero bit_O_CREAT] at h
  split at h
  · cases h
  split at h
  · rename_i hpath
    cases h
    exact .inl ⟨hpath.1, by simpa [ReadOnlyOpen.flags] using hpath.2⟩
  split at h
  · cases h
  rename_i hacc
  split at h
  · cases h
  split at h
  · cases h
  rename_i htmp
  split at h
  · cases h
  rename_i htrunc
  rw [not_not] at hacc htmp htrunc
  split at h
  · rename_i hcreat
    cases h
    exact .inr ⟨hacc, hcreat, htrunc, htmp⟩
  · cases h
    refine .inr ?_
    simp [ReadOnlyOpen.flags, hacc, htrunc, htmp]

theorem readsOnly_guestOpenFlags {cfg : Config} (h : linux.ReadsOnly flags) :
    linux.ReadsOnly (PassthroughFs.guestOpenFlags cfg flags) := by
  rw [readsOnly_linux_iff_bits] at h ⊢
  unfold PassthroughFs.guestOpenFlags
  rw [bit_linuxToLinuxOpenFlags 0 (by decide), bit_linuxToLinuxOpenFlags 1 (by decide),
    bit_linuxToLinuxOpenFlags 6 (by decide), bit_linuxToLinuxOpenFlags 9 (by decide),
    bit_linuxToLinuxOpenFlags 21 (by decide), bit_linuxToLinuxOpenFlags 22 (by decide)]
  exact h

theorem readsOnly_or_directory (h : linux.ReadsOnly flags) :
    linux.ReadsOnly (flags ||| O_DIRECTORY) := by
  rw [readsOnly_linux_iff_bits] at h ⊢
  simpa using h

/-- Nothing `do_open` and `open_inode` do adds a right to write: a file for reading stays one
with a writeback cache. -/
theorem readsOnly_openInodeFlags {cfg : Config} {writeback : Bool}
    (h : linux.ReadsOnly flags) :
    linux.ReadsOnly
      (PassthroughFs.openInodeFlags cfg writeback (doOpenFlags cfg flags)) := by
  rw [readsOnly_linux_iff_bits] at h ⊢
  simp only [bit_openInodeFlags, bit_doOpenFlags]
  rcases h with h | ⟨⟨h₀, h₁⟩, h₆, h₉, h₂₂⟩
  · exact .inl (by simpa using h)
  · exact .inr (by simp [h₀, h₁, h₆, h₉, h₂₂])

/-- **The translation to Darwin** keeps an open for reading one. -/
theorem readsOnly_linuxToDarwin {guest : GuestArch}
    (h : (bit flags 0 = false ∧ bit flags 1 = false) ∧ bit flags 6 = false ∧ bit flags 9 = false) :
    darwin.ReadsOnly (linuxToDarwinOpenFlags flags guest).flags := by
  obtain ⟨hacc, h₆, h₉⟩ := h
  have hcreat : ¬ flags &&& O_CREAT = O_CREAT := and_flag_ne_of_bit (by decide) h₆
  have htrunc : ¬ flags &&& O_TRUNC = O_TRUNC := and_flag_ne_of_bit (by decide) h₉
  unfold linuxToDarwinOpenFlags
  dsimp only
  -- `O_SYNC` comes after the table, as one more row of it
  rw [if_pos (readOnly_iff_bits.mpr hacc), ← List.foldl_concat (addFlag flags),
    readsOnly_darwin_iff_bits]
  refine ⟨⟨?_, ?_⟩, ?_, ?_⟩
  · exact bit_foldl_addFlag (by cases guest <;> rfl) hcreat _ rfl
  · exact bit_foldl_addFlag (by cases guest <;> rfl) hcreat _ rfl
  · exact bit_foldl_addFlag (by cases guest <;> rfl) hcreat _ rfl
  · exact bit_foldl_addFlag (by cases guest <;> rfl) htrunc _ rfl

theorem readsOnly_darwin_openInodeFlags {writeback : Bool} (h : darwin.ReadsOnly flags) :
    darwin.ReadsOnly (Darwin.openInodeFlags writeback flags) := by
  have hread : ¬ flags &&& Darwin.O_ACCMODE = Darwin.O_WRONLY := by
    rw [h.1]
    decide
  have hcloexec : darwin.ReadsOnly Darwin.O_CLOEXEC := by
    simp only [HostKind.ReadsOnly]
    decide
  unfold Darwin.openInodeFlags
  rw [if_neg (fun hwrite => hread hwrite.2)]
  cases writeback with
  | false => exact readsOnly_darwin_or h hcloexec
  | true => exact readsOnly_darwin_or (readsOnly_darwin_and h) hcloexec

/-! ## 4. Opening files -/

section Opening

variable {cfg : Config} {pathOnly : Fd → Prop} {kind : HostKind}

theorem host_harmless (c : HostCall) (h : c.Harmless kind pathOnly) :
    Harmlessly kind pathOnly (host c) (NeutralAct.MarksPaths kind pathOnly (.host c)) :=
  Obeys.perform h

theorem query_harmless (q : Query) : Harmlessly kind pathOnly (query q) fun _ => True :=
  (Obeys.perform trivial).mono fun _ _ => trivial

theorem errno_harmless (r : Except Errno α) :
    Harmlessly kind pathOnly (errno r) (fun a => r = .ok a) := by
  cases r with
  | ok a => exact Obeys.ret rfl
  | error e => exact Obeys.err

/-- A descriptor opened with `O_PATH` is known as one. -/
theorem openFile_harmless (d : InodeData) (h : kind.ReadsOnly flags) :
    Harmlessly kind pathOnly (d.openFile flags)
      (fun fd => kind = .linux → bit flags 21 = true → pathOnly fd) := by
  have hpath : bit flags 21 = true → bit (followed true flags) 21 = true := fun hbit => by
    simpa [bit_followed] using hbit
  unfold InodeData.openFile
  split
  · rename_i f _
    split
    · exact Obeys.err
    · refine (host_harmless (.reopen f flags) h).bind fun r hr => ?_
      refine (errno_harmless r).mono fun fd hfd hkind hbit => ?_
      subst hfd
      refine hr hkind fd (.reopen f flags) rfl ?_
      rw [Ne, and_flag_eq_zero bit_O_PATH, Bool.not_eq_false]
      exact hpath hbit
  · rename_i fh _
    split
    · exact Obeys.err
    · refine (host_harmless (.openByHandle fh flags) h).bind fun r hr => ?_
      refine (errno_harmless r).mono fun fd hfd hkind hbit => ?_
      subst hfd
      refine hr hkind fd (.openByHandle fh flags) rfl ?_
      rw [Ne, and_flag_eq_zero bit_O_PATH, Bool.not_eq_false]
      exact hbit
  · exact Obeys.err

theorem withoutFsetid_harmless {drop : Bool} {body : NeutralM α} {Q : α → Prop}
    (h : Harmlessly kind pathOnly body Q) : Harmlessly kind pathOnly
      (withoutFsetid drop body) Q := by
  unfold withoutFsetid
  split
  · exact h
  · refine (host_harmless .dropCapability trivial).bind fun r _ => ?_
    refine (Obeys.ofExcept r).bind fun dropped _ => ?_
    refine h.ensuring ?_
    split
    · refine (host_harmless .restoreCapability trivial).bind fun restored _ => ?_
      cases restored with
      | true => exact Obeys.ret trivial
      | false => exact Keeps.panic
    · exact Obeys.ret trivial

/-- The capabilities of a file are removed through a descriptor that cannot do it. -/
theorem clearFileCapabilities_harmless {fd : Fd} {type : Nat} (h : pathOnly fd) :
    Harmlessly .linux pathOnly (PassthroughFs.clearFileCapabilities cfg fd type false)
      fun _ => True := by
  unfold PassthroughFs.clearFileCapabilities
  split
  · exact Obeys.ret trivial
  · rename_i xattrname _
    split
    · exact Obeys.ret trivial
    · refine (host_harmless (.libc (.fremovexattr fd xattrname)) ⟨rfl, h⟩).bind fun ok _ => ?_
      dsimp only
      split
      · exact Obeys.ret trivial
      · refine (host_harmless .lastOsError trivial).bind fun e _ => ?_
        split
        · exact Obeys.ret trivial
        · exact Obeys.err

variable (inode : Inode)

theorem newHandle_harmless (fd : Fd) (type : Nat) :
    Harmlessly kind pathOnly (PassthroughFs.newHandle inode fd type flags) fun _ => True := by
  refine (query_harmless .fetchAddHandle).bind fun handle _ => ?_
  refine (allocateFd_keeps fun _ => trivial).bind fun _ _ => ?_
  exact (query_harmless _).map

/-- **`do_open`** with flags that change nothing. -/
theorem doOpen_harmless (killPriv : Bool) (h : linux.ReadsOnly flags) :
    Harmlessly .linux pathOnly (PassthroughFs.doOpen cfg inode killPriv flags) fun _ => True := by
  unfold PassthroughFs.doOpen
  dsimp only
  rw [show (if cfg.cleanNoatime = true then flags &&& ~~~O_APPEND &&& ~~~O_NOATIME else
    flags &&& ~~~O_APPEND) = doOpenFlags cfg flags from rfl]
  refine (PassthroughFs.getInode_keeps (fun _ => trivial) inode).bind fun r _ => ?_
  -- with `O_PATH` in the flags the descriptor is one of `pathOnly`
  have hopen : Harmlessly .linux pathOnly
      (PassthroughFs.openInode cfg r.data (doOpenFlags cfg flags))
      (fun fd => bit flags 21 = true → pathOnly fd) := by
    refine (query_harmless (.load .writeback)).bind fun writeback _ => ?_
    refine (openFile_harmless r.data (readsOnly_openInodeFlags h)).mono fun fd hfd hbit => ?_
    refine hfd rfl ?_
    simpa [bit_openInodeFlags, bit_doOpenFlags] using hbit
  refine (withoutFsetid_harmless hopen).bind fun fd hfd => ?_
  have hnew : Harmlessly .linux pathOnly (Prog.bind (PassthroughFs.newHandle inode fd
      (fileType r.data.mode) (doOpenFlags cfg flags)) fun handle =>
        .ret (some handle, PassthroughFs.openOptions cfg (doOpenFlags cfg flags))) fun _ => True :=
    (newHandle_harmless inode fd _).map
  split
  · rename_i htrunc
    -- only an `O_PATH` gets this far with `O_TRUNC`
    have hpath : bit flags 21 = true := by
      rw [Ne, and_flag_eq_zero bit_O_TRUNC, bit_doOpenFlags, Bool.not_eq_false] at htrunc
      rcases readsOnly_linux_iff_bits.mp h with hbit | ⟨-, -, h₉, -⟩
      · exact hbit
      · simp [h₉] at htrunc
    exact (clearFileCapabilities_harmless (hfd hpath)).bind fun _ _ => hnew
  · exact hnew

/-- **`rofs_open`**, around an open that changes nothing with such flags. -/
theorem rofsOpen_harmless {openFn : UInt32 → NeutralM α}
    (h : ∀ fl, linux.ReadsOnly fl → Harmlessly .linux pathOnly (openFn fl) fun _ => True) :
    Harmlessly .linux pathOnly (rofsOpen flags openFn) fun _ => True := by
  unfold rofsOpen
  rw [← readOnlyOpenOn_true]
  cases hopen : readOnlyOpenOn true flags with
  | error e => exact Obeys.err
  | ok x =>
    have hreads : linux.ReadsOnly x.flags := by
      rcases of_readOnlyOpenOn hopen with ⟨-, hbit⟩ | hbits
      · exact readsOnly_linux_iff_bits.mpr (.inl hbit)
      · exact readsOnly_linux_iff_bits.mpr (.inr hbits)
    cases x with
    | «open» fl => exact h fl hreads
    | openExisting fl =>
      exact (h fl hreads).attempt_bind (fun _ _ => Obeys.ret trivial) fun _ => Obeys.err

theorem openFileRo_harmless (killPriv : Bool) :
    Harmlessly .linux pathOnly (openFile cfg inode killPriv flags) fun _ => True :=
  rofsOpen_harmless fun _ hfl => doOpen_harmless inode killPriv (readsOnly_guestOpenFlags hfl)

theorem opendirRo_harmless :
    Harmlessly .linux pathOnly (opendir cfg inode flags) fun _ => True :=
  rofsOpen_harmless fun _ hfl =>
    doOpen_harmless inode false (readsOnly_or_directory (readsOnly_guestOpenFlags hfl))

/-! ### On Darwin -/

theorem applyNocache_harmless (fd : Fd) (regular nocache : Bool) :
    Harmlessly kind pathOnly (Darwin.applyNocache cfg fd regular nocache) fun _ => True := by
  unfold Darwin.applyNocache
  split
  · exact Obeys.ret trivial
  · refine (host_harmless (.libc (.setNocache fd)) trivial).bind fun ok _ => ?_
    cases ok with
    | true => exact Obeys.ret trivial
    | false =>
      refine Obeys.bind (Q := fun _ => True) ?_ fun e _ => Obeys.err
      exact (host_harmless .lastOsError trivial).map

/-- **`do_open`** on Darwin; there is no `O_TRUNC` to clear capabilities for. -/
theorem doOpenDarwin_harmless (hostFlags : HostOpenFlags)
    (h : darwin.ReadsOnly hostFlags.flags) :
    Harmlessly .darwin pathOnly (Darwin.doOpen cfg inode hostFlags) fun _ => True := by
  have hflags : darwin.ReadsOnly (hostFlags.flags &&& ~~~Darwin.O_APPEND) :=
    readsOnly_darwin_and h
  unfold Darwin.doOpen
  dsimp only
  refine (PassthroughFs.getInode_keeps (fun _ => trivial) inode).bind fun r _ => ?_
  have hopen : Harmlessly .darwin pathOnly
      (Darwin.openInode r.data (hostFlags.flags &&& ~~~Darwin.O_APPEND)) fun _ => True :=
    (query_harmless (.load .writeback)).bind fun writeback _ =>
      (openFile_harmless r.data (readsOnly_darwin_openInodeFlags hflags)).mono fun _ _ => trivial
  refine hopen.bind fun fd _ => ?_
  refine (applyNocache_harmless fd _ _).bind fun _ _ => ?_
  rw [if_neg (not_not.mpr hflags.2.2)]
  refine (query_harmless .fetchAddHandle).bind fun handle _ => ?_
  refine (allocateFd_keeps fun _ => trivial).bind fun _ _ => ?_
  exact (query_harmless _).map

/-- `rofs_open`, where `O_PATH` is no exception. -/
theorem rofsOpenOnDarwin_harmless {openFn : UInt32 → NeutralM α}
    (h : ∀ fl, ((bit fl 0 = false ∧ bit fl 1 = false) ∧ bit fl 6 = false ∧ bit fl 9 = false) →
      Harmlessly .darwin pathOnly (openFn fl) fun _ => True) :
    Harmlessly .darwin pathOnly (rofsOpenOnDarwin flags openFn) fun _ => True := by
  unfold rofsOpenOnDarwin hostKeepsOPath
  cases hopen : readOnlyOpenOn false flags with
  | error e => exact Obeys.err
  | ok x =>
    have hbits : (bit x.flags 0 = false ∧ bit x.flags 1 = false) ∧ bit x.flags 6 = false ∧
        bit x.flags 9 = false := by
      rcases of_readOnlyOpenOn hopen with ⟨hkeeps, -⟩ | ⟨hacc, h₆, h₉, -⟩
      · cases hkeeps
      · exact ⟨hacc, h₆, h₉⟩
    cases x with
    | «open» fl => exact h fl hbits
    | openExisting fl =>
      exact (h fl hbits).attempt_bind (fun _ _ => Obeys.ret trivial) fun _ => Obeys.err

theorem openFileDarwin_harmless :
    Harmlessly .darwin pathOnly
      (rofsOpenOnDarwin flags (Darwin.openFile cfg inode)) fun _ => True :=
  rofsOpenOnDarwin_harmless fun _ hfl => doOpenDarwin_harmless inode _ (readsOnly_linuxToDarwin hfl)

theorem opendirDarwin_harmless :
    Harmlessly .darwin pathOnly
      (rofsOpenOnDarwin flags (Darwin.opendir cfg inode)) fun _ => True := by
  refine rofsOpenOnDarwin_harmless fun fl hfl => ?_
  have hdirectory : darwin.ReadsOnly Darwin.O_DIRECTORY := by
    simp only [HostKind.ReadsOnly]
    decide
  exact doOpenDarwin_harmless inode _ (readsOnly_darwin_or (readsOnly_linuxToDarwin hfl) hdirectory)

end Opening

/-! ## 5. Calls -/

section Calls

variable {cfg : Config} {pathOnly : Fd → Prop}

theorem openReply_harmless {kind : HostKind} {p : NeutralM (Option Handle × OpenOptions)}
    (h : Harmlessly kind pathOnly p fun _ => True) :
    Harmlessly kind pathOnly (openReply p) fun _ => True :=
  h.map

theorem ofFile_harmless {kind : HostKind} {p : NeutralM FileReply}
    (h : Harmlessly kind pathOnly p fun _ => True) :
    FsHarmlessly kind pathOnly (Reply.ofFile p) :=
  (lift_harmless h).map

/-- **A request on Linux.** -/
theorem serve_harmless {request : Request} (hw : request.WriterReads) :
    FsHarmlessly .linux pathOnly (serve cfg request) := by
  cases hopens : request.opens with
  | false => exact (serve_quiet cfg hopens hw).harmless_linux
  | true =>
    cases request with
    | file request =>
      cases request with
      | «open» inode killPriv flags =>
        exact ofFile_harmless (openReply_harmless (openFileRo_harmless inode killPriv))
      | opendir inode flags => exact ofFile_harmless (openReply_harmless (opendirRo_harmless inode))
      | _ => cases hopens
    | create ctx parent name mode killPriv flags umask extensions =>
      refine Obeys.bind (Q := fun _ => True) ?_ fun _ _ => Obeys.ret trivial
      refine (createEntry_quiet cfg parent name).harmless_linux.bind fun e _ => ?_
      exact (lift_harmless (openFileRo_harmless e.inode killPriv)).map
    | _ => cases hopens

/-- **A request on Darwin.** -/
theorem serveOnDarwin_harmless {request : Request} (hw : request.WriterReads) :
    FsHarmlessly .darwin pathOnly (serveOnDarwin cfg request) := by
  have hquiet : request.opens = false →
      FsHarmlessly .darwin pathOnly (FsM.onDarwin (serve cfg request)) :=
    fun hopens => (serve_quiet cfg hopens hw).harmless_darwin
  cases request with
  | file request =>
    cases request with
    | «open» inode killPriv flags =>
      exact ofFile_harmless (openReply_harmless (openFileDarwin_harmless inode))
    | opendir inode flags =>
      exact ofFile_harmless (openReply_harmless (opendirDarwin_harmless inode))
    | _ => exact hquiet rfl
  | create ctx parent name mode killPriv flags umask extensions =>
    refine (createEntry_quiet cfg parent name).harmless_darwin.bind fun e _ => ?_
    exact (lift_harmless (openFileDarwin_harmless e.inode)).map
  | _ => exact hquiet rfl

end Calls

/-- The writer of a READ only reads. -/
def PassthroughFsRo.Call.WriterReads : PassthroughFsRo.Call → Prop
  | .request r => r.WriterReads
  | _ => True

/-- **A call of the file system.** -/
theorem call_harmless {kind : HostKind} {cfg : Config} {pathOnly : Fd → Prop}
    {call : Call} (hw : call.WriterReads) :
    SessionHarmlessly kind pathOnly (call.run kind cfg) := by
  cases call with
  | init capable =>
    cases kind with
    | linux =>
      exact (PassthroughFs.init_quiet cfg capable).harmless_linux.map
    | darwin =>
      exact (PassthroughFs.init_quiet _ capable).harmless_darwin.map
  | destroy =>
    cases kind with
    | linux => exact PassthroughFs.destroy_quiet.harmless_linux
    | darwin => exact PassthroughFs.destroy_quiet.harmless_darwin
  | request r =>
    cases kind with
    | linux => exact (session_harmless (serve_harmless hw)).map
    | darwin =>
      exact (session_harmless (serveOnDarwin_harmless hw)).map

/-! ## 6. The share -/

/-- The descriptors that were opened with `O_PATH` in the course of a log. -/
def PathOpened (log : List (Sigma SessionAct.Ans)) (fd : Fd) : Prop :=
  ∃ (a : NeutralAct) (r : a.Ans) (c : HostCall),
    (⟨.act (.neutral a), r⟩ : Sigma SessionAct.Ans) ∈ log ∧ openedFd a r = some (fd, c) ∧
      c.openFlags &&& O_PATH ≠ 0

theorem marksPaths_of_mem (kind : HostKind) {log : List (Sigma SessionAct.Ans)} :
    ∀ x ∈ log, SessionAct.MarksPaths kind (PathOpened log) x.1 x.2 := by
  rintro ⟨a, r⟩ hx
  cases a with
  | act a =>
    cases a with
    | neutral a => exact fun _ fd c hopened hpath => ⟨a, r, c, hx, hopened, hpath⟩
    | ref a => trivial
  | clear | newInode | storeRefcount => trivial

/-- The calls that reach a read-only share, in any number and from any thread. -/
def PassthroughFsRo.Started (kind : HostKind) (cfg : Config) (p : SessionM Unit) : Prop :=
  ∃ call : PassthroughFsRo.Call, call.WriterReads ∧ p = call.run kind cfg

/-- **A read-only share never changes the host.**  Whatever calls run in whatever order, with
whatever flags and answers of the host, every call to the host is harmless.  Attributes are
removed, if at all, through descriptors that this daemon has opened with `O_PATH`. -/
theorem read_only_share_never_writes (kind : HostKind) (cfg : Config)
    {threads : List (SessionM Unit)} {log : List (Sigma SessionAct.Ans)}
    (h : Interleaved (PassthroughFsRo.Started kind cfg) (fun _ _ => True) threads log) :
    ∀ x ∈ log, x.1.Harmless kind (PathOpened log) := by
  refine (Interleaved.allowed ?_ (h.restrict (marksPaths_of_mem kind))).2
  rintro p ⟨call, hw, rfl⟩
  exact call_harmless hw

/-! ### An `O_PATH` with `O_TRUNC` -/

/-- A share whose daemon clears capabilities itself. -/
def clearingConfig : Config := { Config.default with xattrSecurityCapability := some [0x63] }

/-- CREATE of the file `a`, which exists, with `O_PATH` and `O_TRUNC`. -/
def truncatePath : PassthroughFsRo.Call :=
  .request (.create ⟨0, 0, 0⟩ ROOT_ID [0x61] 0o644 false (O_PATH ||| O_TRUNC) 0 ⟨none, []⟩)

/-- The share after INIT. -/
def clearingWorld : World :=
  ((PassthroughFs.init clearingConfig 0).run World.performSession
    ⟨.initial 8 false, numberedHost, 0⟩).2

def truncatePathLog : List (Sigma SessionAct.Ans) :=
  (truncatePath.run .linux clearingConfig).trace World.performSession clearingWorld

/-- The daemon then does remove an attribute, but through an `O_PATH` descriptor. -/
theorem read_only_share_never_writes_truncatePath :
    (∃ (fd : Fd) (name : Name) (r : Bool),
      (⟨.act (.neutral (.host (.libc (.fremovexattr fd name)))), r⟩ : Sigma SessionAct.Ans) ∈
        truncatePathLog) ∧
      ∀ x ∈ truncatePathLog, x.1.Harmless .linux (PathOpened truncatePathLog) := by
  constructor
  · have hremove : truncatePathLog[14]? =
        some ⟨.act (.neutral (.host (.libc (.fremovexattr 14 [0x63])))), true⟩ := rfl
    exact ⟨14, [0x63], true, List.mem_of_getElem? hremove⟩
  · have hstarted : PassthroughFsRo.Started .linux clearingConfig
        (truncatePath.run .linux clearingConfig) := ⟨truncatePath, trivial, rfl⟩
    obtain ⟨q, hq⟩ := Interleaved.goesOn (.start .nil hstarted)
      (Prog.run_ends World.performSession (truncatePath.run .linux clearingConfig) clearingWorld)
    exact read_only_share_never_writes .linux clearingConfig hq

end Virtiofsd
