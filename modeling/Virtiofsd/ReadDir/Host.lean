/-
  # Directories of the host

  A directory that does not change is a list of entries with distinct cookies.  `hostSpec`
  says what the daemon may expect of the two calls, no more: seeking to 0 or to a cookie up to
  `i64::MAX` goes on right behind its entry, larger offsets fail with `EINVAL`, any other offset
  does anything; `getdents` returns some of the next records, all of which fit, and at least
  one if there is one and it fits.

  Records are bytes: the fixed part, the name, a zero and whatever padding the host likes.
-/
import Virtiofsd.ReadDir
import Virtiofsd.Server.Listing
import Virtiofsd.Lib.Refinement

namespace Virtiofsd

open Lib Server HostOs List

/-! ## 1. Entries and records -/

/-- **An entry of a directory**; `cookie` is where the directory goes on behind it. -/
structure HostEntry where
  ino : UInt64
  cookie : UInt64
  type : UInt8
  name : Name
  padding : List UInt8
  noZero : (0 : UInt8) ∉ name

/-- The name with its terminating zero and the padding. -/
def HostEntry.tail (e : HostEntry) : List UInt8 := e.name ++ 0 :: e.padding

/-- The entry that the guest is told, at the given offset. -/
def HostEntry.dirEntry (e : HostEntry) (offset : UInt64) : DirEntry where
  ino := e.ino
  offset := offset
  type := e.type.toUInt32
  name := e.name

namespace HostOs

/-- The fixed part of a record. -/
def headerSize : HostOs → Nat
  | linux => Linux.LINUX_DIRENT64_SIZE
  | macos => Macos.MACOS_DIRENT_NAME_OFFSET

/-- The length of a record. -/
def recordLen (os : HostOs) (e : HostEntry) : Nat := os.headerSize + e.tail.length

/-- The longest record: `d_reclen` is a `u16`, and `struct dirent` of macOS has 1048 bytes. -/
def maxRecord : HostOs → Nat
  | linux => 2 ^ 16 - 1
  | macos => 1048

/-- The fields of the fixed part. -/
def headerFields (os : HostOs) (e : HostEntry) : Fields :=
  match os with
  | linux => [(8, e.ino.toNat), (8, e.cookie.toNat), (2, os.recordLen e), (1, e.type.toNat)]
  | macos => [(8, e.ino.toNat), (8, e.cookie.toNat), (2, os.recordLen e), (2, e.name.length),
    (1, e.type.toNat)]

/-- **The record of an entry.** -/
def record (os : HostOs) (e : HostEntry) : List UInt8 :=
  fieldBytes (os.headerFields e) ++ e.tail

theorem length_header (os : HostOs) (e : HostEntry) :
    (fieldBytes (os.headerFields e)).length = os.headerSize := by
  cases os <;> simp [headerFields, length_fieldBytes, headerSize,
    Linux.LINUX_DIRENT64_SIZE, Macos.MACOS_DIRENT_NAME_OFFSET]

theorem length_record (os : HostOs) (e : HostEntry) : (os.record e).length = os.recordLen e := by
  rw [record, length_append, length_header, recordLen]

section

variable (os : HostOs) (e : HostEntry) (rest : List UInt8)

/-- A field of a record. -/
theorem fieldAt_record (before : Fields) (w n : Nat) (after : Fields)
    (hfields : before ++ (w, n) :: after = os.headerFields e) :
    fieldAt (os.record e ++ rest) (before.map Prod.fst).sum w = n % 256 ^ w := by
  rw [record, ← hfields, append_assoc, fieldAt_fieldBytes]

/-- What comes behind the fixed part. -/
theorem drop_header : (os.record e ++ rest).drop os.headerSize = e.tail ++ rest := by
  rw [record, append_assoc]
  exact drop_left' (os.length_header e)

theorem drop_record : (os.record e ++ rest).drop (os.recordLen e) = rest :=
  drop_left' (os.length_record e)

end

/-- The records of entries. -/
def records (os : HostOs) (es : List HostEntry) : List UInt8 := es.flatMap os.record

@[simp] theorem records_nil (os : HostOs) : os.records [] = [] := rfl

@[simp] theorem records_cons (os : HostOs) (e : HostEntry) (es : List HostEntry) :
    os.records (e :: es) = os.record e ++ os.records es := by
  simp [records]

theorem recordLen_pos (os : HostOs) (e : HostEntry) : os.headerSize < os.recordLen e := by
  simp [recordLen, HostEntry.tail]

/-- There are no more entries than bytes. -/
theorem length_le_records (os : HostOs) (es : List HostEntry) :
    es.length ≤ (os.records es).length := by
  induction es with
  | nil => exact le_rfl
  | cons e es ih =>
    have := os.recordLen_pos e
    rw [records_cons, length_append, length_record, length_cons]
    omega

theorem records_eq_nil {os : HostOs} {es : List HostEntry} (h : os.records es = []) : es = [] := by
  have := os.length_le_records es
  rw [h] at this
  exact length_eq_zero_iff.mp (by simpa using this)

end HostOs

/-- The name behind the fixed part. -/
theorem stripPadding_tail (e : HostEntry) : stripPadding e.tail = .ok e.name := by
  have hzero : e.tail.contains 0 := by simp [HostEntry.tail]
  rw [stripPadding, if_pos hzero, HostEntry.tail, takeWhile_append_of_pos]
  · simp
  · intro b hb
    rw [bne_iff_ne]
    rintro rfl
    exact e.noZero hb

/-! ## 2. The reader of Linux -/

namespace Linux.ReadDir

variable {rd : ReadDir} {e : HostEntry} {es : List HostEntry}

/-- **What is left of the buffer** is the records of these entries. -/
structure Holds (rd : ReadDir) (es : List HostEntry) : Prop where
  current : rd.current ≤ rd.endPos
  endPos : rd.endPos ≤ rd.buf.length
  rem : rd.rem = HostOs.linux.records es
  records : ∀ e ∈ es, HostOs.linux.recordLen e ≤ HostOs.linux.maxRecord

theorem Holds.remaining (h : Holds rd es) : rd.remaining = (linux.records es).length := by
  rw [← h.rem, ReadDir.rem, length_drop, length_take, Nat.min_eq_left h.endPos,
    ReadDir.remaining]

theorem Holds.remaining_eq_zero (h : Holds rd es) : rd.remaining = 0 ↔ es = [] := by
  rw [h.remaining]
  constructor
  · intro hzero
    exact HostOs.records_eq_nil (length_eq_zero_iff.mp hzero)
  · rintro rfl
    rfl

theorem Holds.next_nil (h : Holds rd []) : rd.next = .ok none := by
  have hrem : rd.rem.isEmpty := by rw [h.rem]; rfl
  have hslice : ¬ (rd.endPos < rd.current ∨ rd.buf.length < rd.endPos) := by
    have := h.current
    have := h.endPos
    omega
  rw [next, if_neg hslice, if_pos hrem]

/-- **The first record is read.** -/
theorem Holds.next_cons (h : Holds rd (e :: es)) :
    ∃ rd', rd.next = .ok (some (e.dirEntry e.cookie, rd')) ∧ Holds rd' es ∧ rd'.buf = rd.buf := by
  have hmax := h.records e List.mem_cons_self
  have hcurrent := h.current
  have hend := h.endPos
  have hheader : linux.headerSize = LINUX_DIRENT64_SIZE := rfl
  have hpos := linux.recordLen_pos e
  have hmaxRecord : linux.maxRecord = 2 ^ 16 - 1 := rfl
  have hlen : rd.rem.length = linux.recordLen e + (linux.records es).length := by
    rw [h.rem, HostOs.records_cons, length_append, HostOs.length_record]
  have hremaining := h.remaining
  rw [ReadDir.remaining, ← h.rem, hlen] at hremaining
  have hrem : rd.rem = linux.record e ++ linux.records es := by
    rw [h.rem, HostOs.records_cons]
  have hino : fieldAt rd.rem 0 8 = e.ino.toNat % 256 ^ 8 := by
    rw [hrem]
    exact HostOs.fieldAt_record .linux e _ [] 8 _ _ rfl
  have hoff : fieldAt rd.rem 8 8 = e.cookie.toNat % 256 ^ 8 := by
    rw [hrem]
    exact HostOs.fieldAt_record .linux e _ [(8, e.ino.toNat)] 8 _ _ rfl
  have hreclen : fieldAt rd.rem 16 2 = linux.recordLen e := by
    rw [hrem]
    have hfield := HostOs.fieldAt_record .linux e (linux.records es)
      [(8, e.ino.toNat), (8, e.cookie.toNat)] 2 (linux.recordLen e) [(1, e.type.toNat)] rfl
    exact hfield.trans (Nat.mod_eq_of_lt (by omega))
  have htype : fieldAt rd.rem 18 1 = e.type.toNat % 256 ^ 1 := by
    rw [hrem]
    exact HostOs.fieldAt_record .linux e _ [(8, e.ino.toNat), (8, e.cookie.toNat), (2, _)] 1 _ []
      rfl
  have hname : (rd.rem.drop LINUX_DIRENT64_SIZE).take
      (linux.recordLen e - LINUX_DIRENT64_SIZE) = e.tail := by
    have htail : linux.recordLen e - LINUX_DIRENT64_SIZE = e.tail.length := by
      rw [HostOs.recordLen, hheader, Nat.add_sub_cancel_left]
    rw [hrem, ← hheader, HostOs.drop_header, hheader, htail, take_left]
  refine ⟨{ rd with current := rd.current + linux.recordLen e }, ?_, ⟨?_, hend, ?_, ?_⟩, rfl⟩
  · have hslice : ¬ (rd.endPos < rd.current ∨ rd.buf.length < rd.endPos) := by omega
    have hsome : ¬ rd.rem.isEmpty := by
      rw [List.isEmpty_iff, ← length_eq_zero_iff]
      omega
    have hreclen' : ¬ (fieldAt rd.rem 16 2 < LINUX_DIRENT64_SIZE ∨
        rd.rem.length < fieldAt rd.rem 16 2) := by omega
    rw [next, if_neg hslice, if_neg hsome, if_neg (by omega)]
    dsimp only
    rw [if_neg hreclen', hreclen, hname, stripPadding_tail, hino, hoff, htype, ofNat_toNat_mod_64,
      ofNat_toNat_mod_64, ofNat_toNat_mod_8]
    rfl
  · dsimp only
    omega
  · have hdrop := HostOs.drop_record .linux e (linux.records es)
    rw [← hrem] at hdrop
    rw [← hdrop]
    dsimp only [ReadDir.rem]
    rw [drop_drop]
  · exact fun e' he' => h.records e' (mem_cons_of_mem _ he')

/-- The buffer is an iterator over its entries. -/
theorem Holds.yields (h : Holds rd es) : Yields rd (es.map fun e => e.dirEntry e.cookie) := by
  induction es generalizing rd with
  | nil => exact ⟨rd, .nil _, h.next_nil⟩
  | cons e es ih =>
    obtain ⟨rd', hnext, h', -⟩ := h.next_cons
    obtain ⟨last, hlast, hnone⟩ := ih h'
    exact ⟨last, .cons hnext hlast, hnone⟩

/-- The cookie is found. -/
theorem Holds.movePastLoop_of_mem {l₁ l₂ : List HostEntry} (h : Holds rd (l₁ ++ e :: l₂))
    (hbefore : ∀ e' ∈ l₁, e'.cookie ≠ e.cookie) {rounds : Nat} (hrounds : l₁.length < rounds) :
    ∃ rd', movePastLoop e.cookie rounds rd = .ok (true, rd') ∧ Holds rd' l₂ ∧ rd'.buf = rd.buf := by
  induction l₁ generalizing rd rounds with
  | nil =>
    obtain ⟨rd', hnext, h', hbuf⟩ := h.next_cons
    cases rounds with
    | zero => simp at hrounds
    | succ rounds =>
      refine ⟨rd', ?_, h', hbuf⟩
      rw [movePastLoop, hnext]
      exact if_pos rfl
  | cons e' l₁ ih =>
    obtain ⟨hne, hbefore'⟩ := forall_mem_cons.mp hbefore
    obtain ⟨rd', hnext, h', hbuf⟩ := h.next_cons
    cases rounds with
    | zero => simp at hrounds
    | succ rounds =>
      obtain ⟨rd'', hloop, h'', hbuf'⟩ := ih h' hbefore' (by simpa using hrounds)
      refine ⟨rd'', ?_, h'', hbuf'.trans hbuf⟩
      rw [movePastLoop, hnext, ← hloop]
      exact if_neg hne

/-- The cookie is not among these entries. -/
theorem Holds.movePastLoop_of_notMem {targetOffset : UInt64} (h : Holds rd es)
    (hes : ∀ e ∈ es, e.cookie ≠ targetOffset) (rounds : Nat) :
    ∃ rd', movePastLoop targetOffset rounds rd = .ok (false, rd') ∧ rd'.buf = rd.buf := by
  induction es generalizing rd rounds with
  | nil =>
    cases rounds with
    | zero => exact ⟨rd, rfl, rfl⟩
    | succ rounds =>
      refine ⟨rd, ?_, rfl⟩
      rw [movePastLoop, h.next_nil]
      rfl
  | cons e es ih =>
    obtain ⟨hne, hes'⟩ := forall_mem_cons.mp hes
    obtain ⟨rd', hnext, h', hbuf⟩ := h.next_cons
    cases rounds with
    | zero => exact ⟨rd, rfl, rfl⟩
    | succ rounds =>
      obtain ⟨rd'', hloop, hbuf'⟩ := ih h' hes' rounds
      refine ⟨rd'', ?_, hbuf'.trans hbuf⟩
      rw [movePastLoop, hnext, ← hloop]
      exact if_neg hne

end Linux.ReadDir

/-! ## 3. The reader of macOS -/

/-- Entries with their numbers, from `i + 1` on. -/
def numbered (i : UInt64) : List HostEntry → List DirEntry
  | [] => []
  | e :: es => e.dirEntry (i + 1) :: numbered (i + 1) es

namespace Macos.ReadDir

variable {rd : ReadDir} {e : HostEntry} {es : List HostEntry}

/-- **What is left of the buffer** is the records of these entries. -/
structure Holds (rd : ReadDir) (es : List HostEntry) : Prop where
  rem : rd.rem = HostOs.macos.records es
  records : ∀ e ∈ es, HostOs.macos.recordLen e ≤ HostOs.macos.maxRecord

/-- The reader behind the first record. -/
def afterRecord (rd : ReadDir) (e : HostEntry) : ReadDir :=
  { rd with current := rd.current + HostOs.macos.recordLen e, entryIndex := rd.entryIndex + 1 }

theorem Holds.afterRecord (h : Holds rd (e :: es)) : Holds (rd.afterRecord e) es := by
  refine ⟨?_, fun e' he' => h.records e' (mem_cons_of_mem _ he')⟩
  have hdrop := HostOs.drop_record .macos e (macos.records es)
  rw [← HostOs.records_cons, ← h.rem] at hdrop
  rw [← hdrop]
  dsimp only [ReadDir.rem, ReadDir.afterRecord]
  rw [drop_drop]

theorem Holds.skip {n : Nat} (h : Holds rd es) : Holds { rd with skipRemaining := n } es :=
  ⟨h.rem, h.records⟩

theorem Holds.nextLoop_nil (h : Holds rd []) (rounds : Nat) : nextLoop rounds rd = .ok none := by
  cases rounds with
  | zero => rfl
  | succ rounds =>
    have hrem : rd.rem.isEmpty := by rw [h.rem]; rfl
    rw [nextLoop, if_pos (.inl hrem)]

/-- **The first record is read**, or left out. -/
theorem Holds.nextLoop_cons (h : Holds rd (e :: es)) (rounds : Nat) :
    nextLoop (rounds + 1) rd =
      if rd.skipRemaining > 0 then
        nextLoop rounds { rd.afterRecord e with skipRemaining := rd.skipRemaining - 1 }
      else .ok (some (e.dirEntry (rd.entryIndex + 1), rd.afterRecord e)) := by
  have hmax := h.records e List.mem_cons_self
  have hmaxRecord : macos.maxRecord = 1048 := rfl
  have hheader : macos.headerSize = MACOS_DIRENT_NAME_OFFSET := rfl
  have hpos := macos.recordLen_pos e
  have htail : macos.recordLen e =
      MACOS_DIRENT_NAME_OFFSET + (e.name.length + (e.padding.length + 1)) := by
    rw [HostOs.recordLen, hheader, HostEntry.tail, length_append, length_cons]
  have hrem : rd.rem = macos.record e ++ macos.records es := by
    rw [h.rem, HostOs.records_cons]
  have hlen : rd.rem.length = macos.recordLen e + (macos.records es).length := by
    rw [hrem, length_append, HostOs.length_record]
  have hino : fieldAt rd.rem 0 8 = e.ino.toNat % 256 ^ 8 := by
    rw [hrem]
    exact HostOs.fieldAt_record .macos e _ [] 8 _ _ rfl
  have hreclen : fieldAt rd.rem 16 2 = macos.recordLen e := by
    rw [hrem]
    have hfield := HostOs.fieldAt_record .macos e (macos.records es)
      [(8, e.ino.toNat), (8, e.cookie.toNat)] 2 (macos.recordLen e) _ rfl
    exact hfield.trans (Nat.mod_eq_of_lt (by omega))
  have hnamlen : fieldAt rd.rem 18 2 = e.name.length := by
    rw [hrem]
    have hfield := HostOs.fieldAt_record .macos e (macos.records es)
      [(8, e.ino.toNat), (8, e.cookie.toNat), (2, macos.recordLen e)] 2 e.name.length _ rfl
    exact hfield.trans (Nat.mod_eq_of_lt (by omega))
  have htype : fieldAt rd.rem 20 1 = e.type.toNat % 256 ^ 1 := by
    rw [hrem]
    exact HostOs.fieldAt_record .macos e _
      [(8, e.ino.toNat), (8, e.cookie.toNat), (2, _), (2, _)] 1 _ [] rfl
  have hname : nameOf rd.rem e.name.length = .ok e.name := by
    have hbehind : rd.rem.drop MACOS_DIRENT_NAME_OFFSET =
        e.name ++ (0 :: (e.padding ++ macos.records es)) := by
      rw [hrem, ← hheader, HostOs.drop_header, HostEntry.tail, append_assoc, cons_append]
    have hzero : rd.rem[MACOS_DIRENT_NAME_OFFSET + e.name.length]? = some 0 := by
      rw [← List.getElem?_drop, hbehind, List.getElem?_append_right le_rfl, Nat.sub_self]
      rfl
    rw [nameOf, if_pos hzero, hbehind, take_left]
  have hsome : ¬ (rd.rem.isEmpty ∨ rd.rem.length < MACOS_DIRENT_NAME_OFFSET) := by
    rw [List.isEmpty_iff, ← length_eq_zero_iff]
    omega
  rw [nextLoop, if_neg hsome]
  dsimp only
  rw [hreclen, hnamlen, if_neg (by omega), hname, if_neg (by omega : ¬ _ > rd.rem.length), hino,
    htype, ofNat_toNat_mod_64, ofNat_toNat_mod_8]
  rfl

/-- The rounds do not matter, if there are enough. -/
theorem Holds.nextLoop_eq (h : Holds rd es) {rounds rounds' : Nat} (hrounds : es.length < rounds)
    (hrounds' : es.length < rounds') : nextLoop rounds rd = nextLoop rounds' rd := by
  induction es generalizing rd rounds rounds' with
  | nil => rw [h.nextLoop_nil, h.nextLoop_nil]
  | cons e es ih =>
    rw [length_cons] at hrounds hrounds'
    obtain ⟨n, rfl⟩ : ∃ n, rounds = n + 1 := ⟨rounds - 1, by omega⟩
    obtain ⟨n', rfl⟩ : ∃ n, rounds' = n + 1 := ⟨rounds' - 1, by omega⟩
    rw [h.nextLoop_cons, h.nextLoop_cons]
    split
    · exact ih h.afterRecord.skip (by omega) (by omega)
    · rfl

theorem Holds.next_eq (h : Holds rd es) {rounds : Nat} (hrounds : es.length < rounds) :
    rd.next = nextLoop rounds rd := by
  have hle := macos.length_le_records es
  rw [← h.rem] at hle
  exact h.nextLoop_eq (by omega) hrounds

/-- An iterator that starts like another gives the same entries. -/
theorem yields_of_next_eq {rd' : ReadDir} {ds : List DirEntry} (hnext : rd.next = rd'.next)
    (h : Yields rd' ds) : Yields rd ds := by
  obtain ⟨last, hlast, hnone⟩ := h
  cases hlast with
  | nil => exact ⟨rd, .nil _, hnext.trans hnone⟩
  | cons hd hrest => exact ⟨last, .cons (hnext.trans hd) hrest, hnone⟩

/-- **The buffer is an iterator over its entries behind those to be left out.** -/
theorem Holds.yields (h : Holds rd es) :
    Yields rd ((numbered rd.entryIndex es).drop rd.skipRemaining) := by
  induction es generalizing rd with
  | nil =>
    refine ⟨rd, ?_, h.nextLoop_nil _⟩
    rw [numbered, drop_nil]
    exact .nil _
  | cons e es ih =>
    have hnext := h.next_eq (Nat.lt_succ_self _)
    rw [h.nextLoop_cons, length_cons] at hnext
    by_cases hskip : rd.skipRemaining > 0
    · have hrest := h.afterRecord.skip (n := rd.skipRemaining - 1)
      rw [if_pos hskip, ← hrest.next_eq (Nat.lt_succ_self _)] at hnext
      have hyields := yields_of_next_eq hnext (ih hrest)
      rwa [numbered, ← Nat.succ_pred_eq_of_pos hskip, drop_succ_cons]
    · rw [if_neg hskip] at hnext
      obtain ⟨last, hlast, hnone⟩ := ih h.afterRecord
      have hzero : rd.skipRemaining = 0 := by omega
      have hlast' : Yielded (rd.afterRecord e) (numbered (rd.entryIndex + 1) es) last := by
        have := hlast
        rwa [show (rd.afterRecord e).skipRemaining = 0 from hzero, drop_zero] at this
      rw [hzero, drop_zero, numbered]
      exact ⟨last, .cons hnext hlast', hnone⟩

end Macos.ReadDir

/-! ## 4. Directories -/

/-- **A directory of the host that does not change.** -/
structure HostDir (os : HostOs) where
  entries : List HostEntry
  cookies : (0 :: entries.map HostEntry.cookie).Nodup
  records : ∀ e ∈ entries, os.recordLen e ≤ os.maxRecord

/-- The entries as the guest is told them: the offset is the cookie, or the number. -/
def HostOs.listed (os : HostOs) (es : List HostEntry) : List DirEntry :=
  match os with
  | .linux => es.map fun e => e.dirEntry e.cookie
  | .macos => numbered 0 es

namespace HostDir

variable {os : HostOs} (dir : HostDir os)

/-- The entries as the guest is told them. -/
def listed : List DirEntry := os.listed dir.entries

/-- **Where to go on behind the first `n` entries**: the offset of the last of them. -/
def resume (n : Nat) : UInt64 := ((dir.listed.take n).getLast?.map DirEntry.offset).getD 0

/-- **What the daemon expects of the host**; the ghost state is the number of entries before
the position of the descriptor. -/
def hostSpec : Spec DirHostCall DirHostCall.Ans Nat where
  pre _ _ := True
  post
    | .lseek offset, _, (r : Except Errno Nat), pos' =>
      (offset = 0 → (∃ n, r = .ok n) ∧ pos' = 0) ∧
      (∀ i e, dir.entries[i]? = some e → e.cookie = offset → offset.toNat ≤ Linux.I64_MAX →
        (∃ n, r = .ok n) ∧ pos' = i + 1) ∧
      (Linux.I64_MAX < offset.toNat → r = .error EINVAL)
    | .getdents size, pos, (r : Except Errno (List UInt8)), pos' =>
      match dir.entries[pos]? with
      | none => r = .ok [] ∧ pos' = pos
      | some e => os.recordLen e ≤ size → ∃ k, 0 < k ∧ pos + k ≤ dir.entries.length ∧
        (os.records ((dir.entries.drop pos).take k)).length ≤ size ∧
        r = .ok (os.records ((dir.entries.drop pos).take k)) ∧ pos' = pos + k

variable {dir}

/-- `getdents` with a buffer for any record. -/
theorem of_getdents {size pos pos' : Nat} {r : Except Errno (List UInt8)}
    (hpost : dir.hostSpec.post (.getdents size) pos r pos') (hpos : pos ≤ dir.entries.length)
    (hsize : ∀ e ∈ dir.entries, os.recordLen e ≤ size) :
    ∃ k, pos + k ≤ dir.entries.length ∧ (pos < dir.entries.length → 0 < k) ∧
      (os.records ((dir.entries.drop pos).take k)).length ≤ size ∧
      r = .ok (os.records ((dir.entries.drop pos).take k)) ∧ pos' = pos + k := by
  dsimp only [hostSpec] at hpost
  split at hpost
  · rename_i hnone
    obtain ⟨rfl, rfl⟩ := hpost
    refine ⟨0, hpos, fun hlt => ?_, Nat.zero_le _, rfl, rfl⟩
    exact absurd hlt (Nat.not_lt.mpr (List.getElem?_eq_none_iff.mp hnone))
  · rename_i e hsome
    obtain ⟨k, hk, hle, hfits, hr, hpos'⟩ := hpost (hsize e (List.mem_of_getElem? hsome))
    exact ⟨k, hle, fun _ => hk, hfits, hr, hpos'⟩

/-- The offsets of a directory fit its entries: a cookie is never used twice. -/
theorem length_lt (dir : HostDir os) : dir.entries.length < 2 ^ 64 := by
  have hnodup : ((0 :: dir.entries.map HostEntry.cookie).map fun c => c.toFin).Nodup := by
    refine Nodup.map (fun a b hab => ?_) dir.cookies
    exact UInt64.toFin_inj.mp hab
  have hcard := hnodup.length_le_card
  simp [UInt64.size] at hcard
  omega

/-- A cookie is that of one entry. -/
theorem cookie_inj {i j : Nat} {e e' : HostEntry} (hi : dir.entries[i]? = some e)
    (hj : dir.entries[j]? = some e') (hcookie : e.cookie = e'.cookie) : i = j := by
  have hlt : i < (dir.entries.map HostEntry.cookie).length := by
    rw [length_map]
    exact (List.getElem?_eq_some_iff.mp hi).1
  refine (List.getElem?_inj hlt (nodup_cons.mp dir.cookies).2).mp ?_
  rw [List.getElem?_map, List.getElem?_map, hi, hj, Option.map_some, Option.map_some, hcookie]

theorem cookie_ne_zero {e : HostEntry} (he : e ∈ dir.entries) : e.cookie ≠ 0 := by
  intro hzero
  exact (nodup_cons.mp dir.cookies).1 (mem_map.mpr ⟨e, he, hzero⟩)

theorem length_numbered (es : List HostEntry) : ∀ i, (numbered i es).length = es.length := by
  induction es with
  | nil => exact fun _ => rfl
  | cons e es ih => exact fun i => congrArg (· + 1) (ih (i + 1))

theorem length_listed : dir.listed.length = dir.entries.length := by
  cases os with
  | linux => exact length_map _
  | macos => exact length_numbered dir.entries 0

theorem resume_zero : dir.resume 0 = 0 := rfl

theorem resume_succ {n : Nat} {d : DirEntry} (h : dir.listed[n]? = some d) :
    dir.resume (n + 1) = d.offset := by
  rw [resume, take_add_one, h, Option.toList_some, List.getLast?_concat]
  rfl

/-- On Linux the listing goes on behind a cookie. -/
theorem resume_linux {dir : HostDir .linux} {n : Nat} {e : HostEntry}
    (h : dir.entries[n]? = some e) : dir.resume (n + 1) = e.cookie := by
  have hlisted : dir.listed[n]? = some (e.dirEntry e.cookie) := by
    rw [listed, HostOs.listed, List.getElem?_map, h]
    rfl
  exact resume_succ hlisted

theorem getElem?_numbered (es : List HostEntry) : ∀ (i : UInt64) (n : Nat),
    (numbered i es)[n]? = es[n]?.map fun e => e.dirEntry (i + 1 + .ofNat n) := by
  induction es with
  | nil => exact fun _ _ => rfl
  | cons e es ih =>
    intro i n
    cases n with
    | zero => simp [numbered]
    | succ n =>
      rw [numbered, List.getElem?_cons_succ, List.getElem?_cons_succ, ih, UInt64.ofNat_add]
      refine congrArg (fun f => Option.map f es[n]?) (funext fun e => congrArg e.dirEntry ?_)
      rw [add_assoc (i + 1), add_comm 1 (UInt64.ofNat n)]
      rfl

/-- On macOS it goes on behind a number. -/
theorem resume_macos {dir : HostDir .macos} {n : Nat} (h : n ≤ dir.entries.length) :
    (dir.resume n).toNat = n := by
  have hlt := dir.length_lt
  cases n with
  | zero => rfl
  | succ n =>
    have hlisted : dir.listed[n]? =
        some ((dir.entries[n]).dirEntry (0 + 1 + .ofNat n)) := by
      rw [listed, HostOs.listed, getElem?_numbered, List.getElem?_eq_getElem h]
      rfl
    rw [resume_succ hlisted]
    have htoNat : (0 + 1 + UInt64.ofNat n).toNat = n + 1 := by
      rw [UInt64.toNat_add, UInt64.toNat_ofNat']
      simp
      omega
    exact htoNat

/-- An offset says how many entries come before it. -/
theorem resume_inj {n m : Nat} (hn : n ≤ dir.entries.length) (hm : m ≤ dir.entries.length)
    (h : dir.resume n = dir.resume m) : n = m := by
  cases os with
  | linux =>
    cases n with
    | zero =>
      cases m with
      | zero => rfl
      | succ m =>
        rw [resume_zero, resume_linux (List.getElem?_eq_getElem hm)] at h
        exact absurd h.symm (cookie_ne_zero (getElem_mem hm))
    | succ n =>
      rw [resume_linux (List.getElem?_eq_getElem hn)] at h
      cases m with
      | zero => exact absurd h (cookie_ne_zero (getElem_mem hn))
      | succ m =>
        rw [resume_linux (List.getElem?_eq_getElem hm)] at h
        rw [cookie_inj (List.getElem?_eq_getElem hn) (List.getElem?_eq_getElem hm) h]
  | macos => rw [← resume_macos hn, ← resume_macos hm, h]

end HostDir

end Virtiofsd
