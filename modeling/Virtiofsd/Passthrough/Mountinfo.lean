/-
  # Mount points from `/proc/self/mountinfo` (`get_mount_root`)

  The kernel writes one line for a mount.  Its fields are separated by spaces, so that spaces,
  tabs, newlines and backslashes in a path are written as octal escapes.  `get_mount_root` splits
  the line at WHITE SPACE, takes the fifth column and looks whether the prefix is in front of it.

  It does not undo the escapes; it splits at white space that is not escaped, as the no-break
  space; it takes `/srv2/x` for a path below `/srv`; below the prefix `/` it leaves out the slash;
  and one line that is not UTF-8 makes it fail for all mounts.  `get_mount_root_iff` says exactly
  when the answer is right, by the names of the mount.
-/
import Virtiofsd.Passthrough.XattrMap
import Virtiofsd.Lib.AbsolutePath

namespace Virtiofsd

open Lib Lib.AbsolutePath XattrMap List

namespace Mountinfo

/-! ## 1. The code -/

/-- `str::parse::<u64>`. -/
def parseMountId (s : List Char) : Option Nat :=
  let digits := match s with
    | '+' :: rest => rest
    | s => s
  if digits ≠ [] ∧ digits.all Char.isDigit ∧ Nat.ofDigitChars 10 digits 0 < 2 ^ 64 then
    some (Nat.ofDigitChars 10 digits 0)
  else none

/-- What is looked for in one line. -/
def mountColumn (mountId : Nat) (line : List Char) : Option (List Char) :=
  match line.splitOnP XattrMap.isWhitespace with
  | [] => none
  | first :: columns => do
    if (← parseMountId first) ≠ mountId then none
    -- without the parent mount, the device and the root within the file system
    columns[3]?

/-- The part of a path behind the prefix `dir`. -/
def belowPrefix (dir p : List Char) : List Char :=
  if dir.isPrefixOf p ∧ p.drop dir.length ≠ [] then p.drop dir.length else ['/']

/-- The error of `read_to_string` for bytes that are not UTF-8. -/
def notUtf8 : IoError := .custom .invalidData "stream did not contain valid UTF-8"

/-- **`MountFds::get_mount_root`**, with the bytes that it reads and the `mountprefix`. -/
def getMountRoot (mountinfo : ByteArray) (mountId : Nat) (dir : Option (List Char)) :
    Except IoError (List Char) :=
  match mountinfo.utf8Decode? with
  | none => .error notUtf8
  | some text =>
    match (text.toList.splitOn '\n').findSome? (mountColumn mountId) with
    | none => .error (.os EINVAL)
    | some p =>
      match dir with
      | none => .ok p
      | some dir => .ok (belowPrefix dir p)

/-! ## 2. The format -/

/-- What the kernel writes for a character of a path. -/
def escapeChar (c : Char) : List Char :=
  if c = ' ' then ['\\', '0', '4', '0']
  else if c = '\t' then ['\\', '0', '1', '1']
  else if c = '\n' then ['\\', '0', '1', '2']
  else if c = '\\' then ['\\', '1', '3', '4']
  else [c]

def escape (path : List Char) : List Char := path.flatMap escapeChar

/-- White space that is written as it is. -/
def isStray (c : Char) : Bool := XattrMap.isWhitespace c && c ≠ ' ' && c ≠ '\t' && c ≠ '\n'

/-- What is read of a path: its escapes, up to the first white space that is not escaped. -/
def readAs (p : List Char) : List Char := escape (p.takeWhile fun c => !isStray c)

/-- A path that is written as it is, and as one word. -/
def Plain (p : List Char) : Prop := ∀ c ∈ p, XattrMap.isWhitespace c = false ∧ c ≠ '\\'

/-- The names of a path. -/
def Names (names : List (List Char)) : Prop := ∀ name ∈ names, name ≠ [] ∧ '/' ∉ name

instance (names : List (List Char)) : Decidable (Names names) :=
  inferInstanceAs (Decidable (∀ name ∈ names, _))

/-- **A mount.**  The mount point is given by its names; `rest` are the fields behind it. -/
structure Mount where
  id : Nat
  parent : Nat
  major : Nat
  minor : Nat
  root : List Char
  mountPoint : List (List Char)
  rest : List (List Char)
  id_lt : id < 2 ^ 64
  names : Names mountPoint
  rest_line : ∀ field ∈ rest, '\n' ∉ field

namespace Mount

def digits (n : Nat) : List Char := Nat.toDigits 10 n

/-- The line of a mount. -/
def line (m : Mount) : List Char :=
  digits m.id ++ ' ' :: (digits m.parent ++ ' ' :: (digits m.major ++ ':' :: digits m.minor ++
    ' ' :: (escape m.root ++ ' ' :: (escape (path '/' m.mountPoint) ++
      m.rest.flatMap (' ' :: ·)))))

/-- **What is taken for the mount point**: what is read of it, or of the root behind the first
white space that is not escaped. -/
def column (m : Mount) : List Char :=
  match m.root.dropWhile fun c => !isStray c with
  | [] => readAs (path '/' m.mountPoint)
  | _ :: behind => readAs behind

/-- **The right answer**: the mount point, or what is below the prefix. -/
def visible (m : Mount) : Option (List (List Char)) → List Char
  | none => path '/' m.mountPoint
  | some dir =>
    if dir <+: m.mountPoint ∧ dir ≠ m.mountPoint then path '/' (m.mountPoint.drop dir.length)
    else ['/']

/-- **The names are such that the code understands them.** -/
def Understood (m : Mount) : Option (List (List Char)) → Prop
  | none => m.column = path '/' m.mountPoint
  | some dir =>
    if dir <+: m.mountPoint ∧ dir ≠ m.mountPoint then
      m.column = path '/' dir ++ spell '/' (m.mountPoint.drop dir.length)
    else path '/' dir <+: m.column →
      m.column = path '/' dir ∨ m.column = path '/' dir ++ ['/']

/-- **What that comes to for a root with no white space but what is escaped**: the mount point is
plain; below a prefix, that is not `/` in addition; elsewhere nothing is read that has the prefix
in front. -/
def Readable (m : Mount) : Option (List (List Char)) → Prop
  | none => Plain (path '/' m.mountPoint)
  | some dir =>
    if dir <+: m.mountPoint ∧ dir ≠ m.mountPoint then dir ≠ [] ∧ Plain (path '/' m.mountPoint)
    else path '/' dir <+: readAs (path '/' m.mountPoint) →
      readAs (path '/' m.mountPoint) = path '/' dir ∨
        readAs (path '/' m.mountPoint) = path '/' dir ++ ['/']

end Mount

/-- The lines of the mounts. -/
def linesOf (mounts : List Mount) : List Char := mounts.flatMap fun m => m.line ++ ['\n']

/-- **A mount table**: the mounts whose names are text, and the bytes of all lines.  If these are
UTF-8, there are no others: as no byte of a longer character is ASCII, the names are UTF-8 then. -/
structure Table where
  mounts : List Mount
  bytes : ByteArray
  ids_nodup : (mounts.map Mount.id).Nodup
  bytes_eq : bytes.IsValidUTF8 → bytes = (linesOf mounts).utf8Encode

/-- **What is read**: the text of the mounts, or nothing if the bytes are not UTF-8. -/
theorem Table.utf8Decode?_bytes (t : Table) :
    (t.bytes.IsValidUTF8 ∧ t.bytes.utf8Decode? = some (linesOf t.mounts).toArray) ∨
      (¬ t.bytes.IsValidUTF8 ∧ t.bytes.utf8Decode? = none) := by
  by_cases h : t.bytes.IsValidUTF8
  · refine .inl ⟨h, ?_⟩
    rw [t.bytes_eq h]
    exact List.utf8Decode?_utf8Encode
  · refine .inr ⟨h, ?_⟩
    rw [← Option.not_isSome_iff_eq_none, ByteArray.isSome_utf8Decode?_iff]
    exact h

/-! ## 3. Words of a line -/

theorem escapeChar_notMem (c : Char) : '\n' ∉ escapeChar c := by
  unfold escapeChar
  split_ifs with h₁ h₂ h₃ h₄
  · decide
  · decide
  · decide
  · decide
  · simpa using Ne.symm h₃

theorem escape_notMem (p : List Char) : '\n' ∉ escape p := by
  intro h
  obtain ⟨c, -, hc⟩ := mem_flatMap.mp h
  exact escapeChar_notMem c hc

theorem not_isWhitespace_of_isDigit {c : Char} (h : c.isDigit = true) :
    isWhitespace c = false := by
  have hc : 48 ≤ c.toNat ∧ c.toNat ≤ 57 := by
    simp only [Char.isDigit, Bool.and_eq_true, decide_eq_true_eq] at h
    exact ⟨UInt32.le_iff_toNat_le.mp h.1, UInt32.le_iff_toNat_le.mp h.2⟩
  simp only [isWhitespace, mem_cons, not_mem_nil, or_false, Bool.or_eq_false_iff,
    decide_eq_false_iff_not, Bool.and_eq_false_iff]
  omega

theorem isDigit_of_mem_digits {n : Nat} {c : Char} (h : c ∈ Mount.digits n) : c.isDigit = true :=
  Nat.isDigit_of_mem_toDigits (by decide) (by decide) h

theorem words_digits (n : Nat) :
    (Mount.digits n).splitOnP isWhitespace = [Mount.digits n] :=
  splitOnP_eq_singleton fun _ hc => not_isWhitespace_of_isDigit (isDigit_of_mem_digits hc)

theorem words_device (major minor : Nat) :
    (Mount.digits major ++ ':' :: Mount.digits minor).splitOnP isWhitespace =
      [Mount.digits major ++ ':' :: Mount.digits minor] := by
  refine splitOnP_eq_singleton fun c hc => ?_
  rcases mem_append.mp hc with hc | hc
  · exact not_isWhitespace_of_isDigit (isDigit_of_mem_digits hc)
  · rcases mem_cons.mp hc with rfl | hc
    · decide
    · exact not_isWhitespace_of_isDigit (isDigit_of_mem_digits hc)

theorem words_append_space (l l' : List Char) :
    (l ++ ' ' :: l').splitOnP isWhitespace =
      l.splitOnP isWhitespace ++ l'.splitOnP isWhitespace :=
  splitOnP_append_cons l l' (by decide)

/-- The first word ends at the first white space. -/
theorem words_eq_cons (l : List Char) : ∃ others, l.splitOnP isWhitespace =
    (l.takeWhile fun c => !isWhitespace c) :: others := by
  induction l with
  | nil => exact ⟨[], rfl⟩
  | cons c l ih =>
    obtain ⟨others, hothers⟩ := ih
    rw [splitOnP_cons_eq_if_modifyHead, takeWhile_cons, hothers]
    cases isWhitespace c with
    | true => exact ⟨_, rfl⟩
    | false => exact ⟨others, rfl⟩

theorem escapeChar_of_isStray {c : Char} (h : isStray c = true) : escapeChar c = [c] := by
  simp only [isStray, Bool.and_eq_true, decide_eq_true_eq] at h
  obtain ⟨⟨⟨hws, h₁⟩, h₂⟩, h₃⟩ := h
  unfold escapeChar
  rw [if_neg h₁, if_neg h₂, if_neg h₃, if_neg]
  rintro rfl
  exact absurd hws (by decide)

/-- Of the white space of a path, that is left which is not escaped. -/
theorem isWhitespace_escapeChar {c : Char} (h : isStray c = false) :
    ∀ d ∈ escapeChar c, isWhitespace d = false := by
  have hescaped : ∀ l : List Char, (l.all fun d => !isWhitespace d) = true → ∀ d ∈ l,
      isWhitespace d = false := fun l hl d hd => by simpa using all_eq_true.mp hl d hd
  unfold escapeChar
  split_ifs with h₁ h₂ h₃ h₄
  · exact hescaped _ (by decide)
  · exact hescaped _ (by decide)
  · exact hescaped _ (by decide)
  · exact hescaped _ (by decide)
  · intro d hd
    rw [mem_singleton.mp hd]
    simpa [isStray, h₁, h₂, h₃] using h

theorem escape_cons (c : Char) (p : List Char) : escape (c :: p) = escapeChar c ++ escape p :=
  flatMap_cons

theorem isWhitespace_escape {p : List Char} (h : ∀ c ∈ p, isStray c = false) :
    ∀ c ∈ escape p, isWhitespace c = false := by
  intro c hc
  obtain ⟨d, hd, hc⟩ := mem_flatMap.mp hc
  exact isWhitespace_escapeChar (h d hd) c hc

/-- The first word of a path as it is written. -/
theorem takeWhile_escape {tail : List Char} (htail : tail.head?.all isWhitespace = true) :
    ∀ p : List Char, (escape p ++ tail).takeWhile (fun c => !isWhitespace c) = readAs p
  | [] => by cases tail <;> simp_all [escape, readAs]
  | c :: p => by
    rw [escape_cons]
    cases hc : isStray c with
    | true =>
      have hws : isWhitespace c = true := by simp_all [isStray]
      simp [escapeChar_of_isStray hc, hws, readAs, hc, escape]
    | false =>
      have hall : ∀ d ∈ escapeChar c, (!isWhitespace d) = true := fun d hd => by
        rw [isWhitespace_escapeChar hc d hd]
        rfl
      rw [append_assoc, takeWhile_append_of_pos hall, takeWhile_escape htail p, readAs, readAs,
        takeWhile_cons_of_pos (by rw [hc]; rfl), escape_cons]

theorem parseMountId_digits {n : Nat} (h : n < 2 ^ 64) :
    parseMountId (Mount.digits n) = some n := by
  have hall : (Mount.digits n).all Char.isDigit = true :=
    all_eq_true.mpr fun _ hc => isDigit_of_mem_digits hc
  have hvalue : Nat.ofDigitChars 10 (Mount.digits n) 0 = n := Nat.ofDigitChars_ten_toDigits
  have hne : Mount.digits n ≠ [] := Nat.toDigits_ne_nil
  unfold parseMountId
  split
  · rename_i heq
    rw [heq] at hall
    exact absurd hall (by simp)
  · simp only [hvalue, hall, hne, h, ne_eq, not_false_iff, and_self, if_true]

namespace Mount

variable (m : Mount)

theorem line_notMem : '\n' ∉ m.line := by
  have hdigits : ∀ n, '\n' ∉ digits n := fun n hn => absurd (isDigit_of_mem_digits hn) (by decide)
  have hrest : '\n' ∉ m.rest.flatMap (' ' :: ·) := by
    intro h
    obtain ⟨field, hfield, hc⟩ := mem_flatMap.mp h
    rcases mem_cons.mp hc with hc | hc
    · exact absurd hc (by decide)
    · exact m.rest_line field hfield hc
  simp [line, hdigits, escape_notMem, hrest]

/-- **The words of a line**: the mount point is looked for in the fifth. -/
theorem words_line : ∃ fourth others, m.line.splitOnP isWhitespace =
    digits m.id :: digits m.parent :: (digits m.major ++ ':' :: digits m.minor) ::
      fourth :: m.column :: others := by
  -- the mount point and the fields behind it
  have hpoint := @takeWhile_escape (m.rest.flatMap (' ' :: ·))
    (by cases m.rest <;> simp; decide) (path '/' m.mountPoint)
  obtain ⟨fourth, others, hwords⟩ : ∃ fourth others, (escape m.root ++ ' ' ::
      (escape (path '/' m.mountPoint) ++ m.rest.flatMap (' ' :: ·))).splitOnP isWhitespace =
        fourth :: m.column :: others := by
    unfold column
    split
    · rename_i hnone
      have hroot : ∀ c ∈ m.root, isStray c = false := by simpa using dropWhile_eq_nil_iff.mp hnone
      obtain ⟨others, hothers⟩ := words_eq_cons
        (escape (path '/' m.mountPoint) ++ m.rest.flatMap (' ' :: ·))
      rw [words_append_space, splitOnP_eq_singleton (isWhitespace_escape hroot), hothers, hpoint]
      exact ⟨_, _, rfl⟩
    · rename_i c behind hsome
      have hc : isStray c = true := by
        simpa [hsome] using head?_dropWhile_not (fun c => !isStray c) m.root
      have hroot : escape m.root = readAs m.root ++ c :: escape behind := by
        rw [readAs, ← singleton_append, ← escapeChar_of_isStray hc, ← escape_cons, ← hsome, escape,
          escape, escape, ← flatMap_append, takeWhile_append_dropWhile]
      obtain ⟨others, hothers⟩ := words_eq_cons (escape behind ++ ' ' ::
        (escape (path '/' m.mountPoint) ++ m.rest.flatMap (' ' :: ·)))
      rw [takeWhile_escape (by simp; decide)] at hothers
      have hfirst : ∀ c ∈ readAs m.root, isWhitespace c = false :=
        isWhitespace_escape fun c hc => by simpa using mem_takeWhile_imp hc
      rw [hroot, append_assoc, cons_append, splitOnP_append_cons _ _ (by simp_all [isStray]),
        hothers, splitOnP_eq_singleton hfirst]
      exact ⟨_, _, rfl⟩
  refine ⟨fourth, others, ?_⟩
  unfold line
  rw [words_append_space, words_append_space, words_append_space, words_digits, words_digits,
    words_device, hwords]
  rfl

/-- **What is found in the line of a mount.** -/
theorem mountColumn_line (mountId : Nat) :
    mountColumn mountId m.line = if m.id = mountId then some m.column else none := by
  obtain ⟨fourth, others, hwords⟩ := m.words_line
  unfold mountColumn
  rw [hwords]
  simp only [parseMountId_digits m.id_lt]
  by_cases hid : m.id = mountId <;> simp [hid]

end Mount

/-! ## 4. The table -/

theorem splitOn_lines (mounts : List Mount) :
    (linesOf mounts).splitOn '\n' = mounts.map Mount.line ++ [[]] := by
  induction mounts with
  | nil => rfl
  | cons m mounts ih =>
    rw [linesOf, flatMap_cons, append_assoc, singleton_append,
      splitOn_append_cons_self_of_not_mem m.line_notMem, ← linesOf, ih]
    rfl

theorem findSome?_mountColumn {mounts : List Mount} (hids : (mounts.map Mount.id).Nodup) {m : Mount}
    (hm : m ∈ mounts) :
    (mounts.map Mount.line ++ [[]]).findSome? (mountColumn m.id) = some m.column := by
  induction mounts with
  | nil => cases hm
  | cons m' mounts ih =>
    rw [map_cons, nodup_cons] at hids
    rw [map_cons, cons_append, findSome?_cons, Mount.mountColumn_line]
    rcases mem_cons.mp hm with rfl | hm
    · rw [if_pos rfl]
    · have hne : m'.id ≠ m.id := fun heq => hids.1 (heq ▸ mem_map_of_mem hm)
      rw [if_neg hne]
      exact ih hids.2 hm

/-! ## 5. The prefix -/

theorem belowPrefix_eq_iff {dir p suffix : List Char} (hne : suffix ≠ []) (hroot : suffix ≠ ['/']) :
    belowPrefix dir p = suffix ↔ p = dir ++ suffix := by
  unfold belowPrefix
  simp only [ne_eq, isPrefixOf_iff_prefix]
  constructor
  · intro h
    split_ifs at h with hdir
    · rw [← h]
      exact (prefix_iff_eq_append.mp hdir.1).symm
    · exact absurd h.symm hroot
  · rintro rfl
    have hdrop : (dir ++ suffix).drop dir.length = suffix := drop_left
    rw [hdrop, if_pos ⟨prefix_append _ _, hne⟩]

theorem belowPrefix_eq_root_iff {dir p : List Char} :
    belowPrefix dir p = ['/'] ↔ (dir <+: p → p = dir ∨ p = dir ++ ['/']) := by
  unfold belowPrefix
  simp only [ne_eq, isPrefixOf_iff_prefix]
  by_cases hdir : dir <+: p
  · obtain ⟨suffix, rfl⟩ := hdir
    have hdrop : (dir ++ suffix).drop dir.length = suffix := drop_left
    by_cases hne : suffix = []
    · subst hne
      simp
    · simp [hdrop, hne]
  · simp [hdir]

/-- **What is found for a mount of the table.** -/
theorem getMountRoot_bytes (t : Table) {m : Mount} (hm : m ∈ t.mounts) (dir : Option (List Char)) :
    getMountRoot t.bytes m.id dir = .error notUtf8 ∧ ¬ t.bytes.IsValidUTF8 ∨
      getMountRoot t.bytes m.id dir = .ok ((dir.map (belowPrefix · m.column)).getD m.column) ∧
        t.bytes.IsValidUTF8 := by
  unfold getMountRoot
  rcases t.utf8Decode?_bytes with ⟨hutf8, htext⟩ | ⟨hutf8, htext⟩
  · refine .inr ⟨?_, hutf8⟩
    rw [htext]
    dsimp only
    rw [splitOn_lines, findSome?_mountColumn t.ids_nodup hm]
    cases dir with
    | none | some => rfl
  · exact .inl ⟨by rw [htext], hutf8⟩

theorem visible_iff (m : Mount) (dir : Option (List (List Char))) :
    ((dir.map (path '/')).map (belowPrefix · m.column)).getD m.column = m.visible dir ↔
      m.Understood dir := by
  cases dir with
  | none => rfl
  | some dir =>
    simp only [Option.map_some, Option.getD_some, Mount.visible, Mount.Understood]
    split
    · rename_i hdir
      obtain ⟨⟨rest, hrest⟩, hne⟩ := hdir
      have hne' : rest ≠ [] := fun hnil => hne (by rw [← hrest, hnil, append_nil])
      have hnames : ∀ name ∈ rest, name ≠ [] := fun name hname =>
        (m.names name (hrest ▸ mem_append_right _ hname)).1
      rw [← hrest, drop_left, path_of_ne_nil _ hne']
      refine belowPrefix_eq_iff ?_ (spell_ne_singleton hne' hnames)
      obtain ⟨name, names, rfl⟩ := exists_cons_of_ne_nil hne'
      simp
    · exact belowPrefix_eq_root_iff

/-! ## 6. Plain mount points -/

theorem escapeChar_of_plain {c : Char} (hc : isWhitespace c = false) (hc' : c ≠ '\\') :
    escapeChar c = [c] := by
  have hne : ∀ d, isWhitespace d = true → c ≠ d := by
    rintro d hd rfl
    rw [hc] at hd
    cases hd
  unfold escapeChar
  rw [if_neg (hne ' ' (by decide)), if_neg (hne '\t' (by decide)), if_neg (hne '\n' (by decide)),
    if_neg hc']

theorem escape_of_plain {p : List Char} (h : Plain p) : escape p = p := by
  unfold escape
  rw [flatMap_congr fun c hc => escapeChar_of_plain (h c hc).1 (h c hc).2]
  exact flatMap_singleton' p

/-- An escape makes a path longer, so that it does not read as itself. -/
theorem length_escape (p : List Char) : p.length + p.count '\\' ≤ (escape p).length := by
  induction p with
  | nil => exact le_rfl
  | cons c p ih =>
    have hc : 1 + [c].count '\\' ≤ (escapeChar c).length := by
      unfold escapeChar
      split_ifs with h₁ h₂ h₃ h₄ <;> simp_all
    rw [escape_cons, length_append, length_cons, ← singleton_append, count_append]
    omega

/-- **A path is read as itself exactly if it is plain.** -/
theorem readAs_eq_self_iff {p : List Char} : readAs p = p ↔ Plain p := by
  constructor
  · intro h
    have hws : ∀ c ∈ p, isWhitespace c = false := by
      intro c hc
      rw [← h] at hc
      exact isWhitespace_escape (fun c hc => by simpa using mem_takeWhile_imp hc) c hc
    have hall : ∀ c ∈ p, (!isStray c) = true := fun c hc => by simp [isStray, hws c hc]
    rw [readAs, takeWhile_eq_self_iff.mpr hall] at h
    have hlength := length_escape p
    rw [h] at hlength
    have hcount : p.count '\\' = 0 := by omega
    intro c hc
    refine ⟨hws c hc, ?_⟩
    rintro rfl
    exact count_eq_zero.mp hcount hc
  · intro h
    have hall : ∀ c ∈ p, (!isStray c) = true := fun c hc => by simp [isStray, (h c hc).1]
    rw [readAs, takeWhile_eq_self_iff.mpr hall, escape_of_plain h]

theorem readAs_slash (p : List Char) : readAs ('/' :: p) = '/' :: readAs p := rfl

/-- What is read of a name has no slash in front. -/
theorem head?_readAs {c : Char} (hc : c ≠ '/') (p : List Char) :
    (readAs (c :: p)).head? ≠ some '/' := by
  unfold readAs
  rw [takeWhile_cons]
  split
  · rw [escape_cons]
    unfold escapeChar
    split_ifs <;> simp [hc]
  · simp [escape]

theorem understood_iff {m : Mount} (hroot : ∀ c ∈ m.root, isStray c = false)
    (dir : Option (List (List Char))) : m.Understood dir ↔ m.Readable dir := by
  have hcolumn : m.column = readAs (path '/' m.mountPoint) := by
    rw [Mount.column, dropWhile_eq_nil_iff.mpr fun c hc => by rw [hroot c hc]; rfl]
  cases dir with
  | none => rw [Mount.Understood, Mount.Readable, hcolumn, readAs_eq_self_iff]
  | some dir =>
    simp only [Mount.Understood, Mount.Readable, hcolumn]
    split
    · rename_i hdir
      obtain ⟨⟨rest, hrest⟩, hne⟩ := hdir
      have hne' : rest ≠ [] := fun hnil => hne (by rw [← hrest, hnil, append_nil])
      by_cases hnil : dir = []
      · -- the slash is in front twice
        subst hnil
        obtain rfl : rest = m.mountPoint := hrest
        obtain ⟨name, names, hnames⟩ := exists_cons_of_ne_nil hne'
        obtain ⟨hname, hslash⟩ := m.names name (by rw [hnames]; simp)
        obtain ⟨c, name, rfl⟩ := exists_cons_of_ne_nil hname
        refine iff_of_false (fun heq => ?_) fun h => h.1 rfl
        rw [path_of_ne_nil _ hne', hnames, spell_cons, readAs_slash] at heq
        refine head?_readAs (c := c) (by rintro rfl; simp at hslash) (name ++ spell '/' names) ?_
        rw [show c :: (name ++ _) = (c :: name) ++ spell '/' names from rfl, (cons.inj heq).2]
        rfl
      · have hpath : path '/' dir ++ spell '/' (m.mountPoint.drop dir.length) =
            path '/' m.mountPoint := by
          rw [← hrest, drop_left]
          simp [path_of_ne_nil, hnil, spell_append]
        rw [hpath, readAs_eq_self_iff]
        exact ⟨fun h => ⟨hnil, h⟩, fun h => h.2⟩
    · rfl

/-! ## 7. The answer -/

/-- **`get_mount_root` gives the mount point, or what is below the prefix, exactly if the table is
UTF-8 and the code understands the names.** -/
theorem get_mount_root_iff (t : Table) (m : Mount) (hm : m ∈ t.mounts)
    (dir : Option (List (List Char))) :
    (getMountRoot t.bytes m.id (dir.map (path '/')) = .ok (m.visible dir) ↔
      t.bytes.IsValidUTF8 ∧ m.Understood dir) ∧
    ((∀ c ∈ m.root, isStray c = false) → (m.Understood dir ↔ m.Readable dir)) := by
  refine ⟨?_, fun hroot => understood_iff hroot dir⟩
  rcases getMountRoot_bytes t hm (dir.map (path '/')) with ⟨heq, hutf8⟩ | ⟨heq, hutf8⟩
  · rw [heq]
    exact iff_of_false nofun fun h => hutf8 h.1
  · rw [heq, Except.ok.injEq, visible_iff]
    exact ⟨fun h => ⟨hutf8, h⟩, fun h => h.2⟩

/-- `/mnt/a b` and `/srv2/x`. -/
noncomputable def sampleTable : Table where
  mounts := [
    ⟨1, 0, 8, 1, ['/'], [['m', 'n', 't'], ['a', ' ', 'b']], [], by decide, by decide, nofun⟩,
    ⟨2, 0, 8, 2, ['/'], [['s', 'r', 'v', '2'], ['x']], [], by decide, by decide, nofun⟩]
  bytes := (linesOf _).utf8Encode
  ids_nodup := by decide
  bytes_eq _ := rfl

theorem sampleTable_utf8 : sampleTable.bytes.IsValidUTF8 := ⟨_, rfl⟩

theorem getMountRoot_sample (m : Mount) (hm : m ∈ sampleTable.mounts) (dir : Option (List Char)) :
    getMountRoot sampleTable.bytes m.id dir =
      .ok ((dir.map (belowPrefix · m.column)).getD m.column) :=
  ((getMountRoot_bytes sampleTable hm dir).resolve_left fun h => h.2 sampleTable_utf8).1

/-- The escape is left, the prefix `/srv` is taken off `/srv2/x`, and `/` off `/srv2/x` with the
slash. -/
theorem get_mount_root_wrong :
    getMountRoot sampleTable.bytes 1 none =
      .ok ['/', 'm', 'n', 't', '/', 'a', '\\', '0', '4', '0', 'b'] ∧
    getMountRoot sampleTable.bytes 2 (some ['/', 's', 'r', 'v']) = .ok ['2', '/', 'x'] ∧
    getMountRoot sampleTable.bytes 2 (some ['/']) = .ok ['s', 'r', 'v', '2', '/', 'x'] :=
  ⟨getMountRoot_sample _ (mem_of_getElem? (i := 0) rfl) none,
    getMountRoot_sample _ (mem_of_getElem? (i := 1) rfl) (some ['/', 's', 'r', 'v']),
    getMountRoot_sample _ (mem_of_getElem? (i := 1) rfl) (some ['/'])⟩

/-- The mount point of `/srv2/x` is found, and `/x` below `/srv2`. -/
theorem get_mount_root_found :
    getMountRoot sampleTable.bytes 2 none = .ok ['/', 's', 'r', 'v', '2', '/', 'x'] ∧
    getMountRoot sampleTable.bytes 2 (some ['/', 's', 'r', 'v', '2']) = .ok ['/', 'x'] := by
  have h := get_mount_root_iff sampleTable _ (mem_of_getElem? (i := 1) rfl)
  refine ⟨(h none).1.mpr ⟨sampleTable_utf8, rfl⟩,
    (h (some [['s', 'r', 'v', '2']])).1.mpr ⟨sampleTable_utf8, ?_⟩⟩
  unfold Mount.Understood
  decide

end Mountinfo

end Virtiofsd
