/-
  # The readers read what follows the offset (`read_dir.rs`)

  Whatever the position of the descriptor was before: a reader that is asked to go on behind
  the first `p` entries of a directory returns an iterator over some of the entries that
  follow, at least one if there is one.  This holds for each way to resume: a seek to a
  cookie, a scan for a cookie that the host does not take, and counting.
-/
import Virtiofsd.ReadDir.Host

namespace Virtiofsd

open Lib Server List HostOs

/-- **A batch of what follows the first `p` entries.** -/
def HostDir.Batch {os : HostOs} (dir : HostDir os) (p : Nat) (ds : List DirEntry) : Prop :=
  ∃ k, ds = (dir.listed.drop p).take k ∧ (p < dir.entries.length → 0 < k)

/-! ## 1. Linux -/

namespace Linux.ReadDir

variable {dir : HostDir .linux} {buf : List UInt8}

/-- The buffer takes any record of the directory. -/
def Takes (buf : List UInt8) (dir : HostDir .linux) : Prop :=
  ∀ e ∈ dir.entries, linux.recordLen e ≤ buf.length

variable {Q : Outcome IoError Panic ReadDir → Nat → Prop}

/-- `new_no_seek` returns some of the entries at the position. -/
theorem wp_newNoSeek {pos : Nat} (hpos : pos ≤ dir.entries.length) (hbuf : Takes buf dir)
    (hQ : ∀ rd k, Holds rd ((dir.entries.drop pos).take k) → pos + k ≤ dir.entries.length →
      (pos < dir.entries.length → 0 < k) → rd.buf.length = buf.length → Q (.ok rd) (pos + k)) :
    (newNoSeek buf).wp dir.hostSpec Q pos := by
  refine ⟨trivial, fun r pos' hpost => ?_⟩
  obtain ⟨k, hle, hk, hfits, hr, rfl⟩ := HostDir.of_getdents hpost hpos hbuf
  have hr' : r = Except.ok (linux.records ((dir.entries.drop pos).take k)) := hr
  subst hr'
  refine hQ _ k ⟨Nat.zero_le _, ?_, ?_, fun e he => dir.records e ?_⟩ hle hk ?_
  · rw [length_append]
    exact Nat.le_add_right _ _
  · rw [ReadDir.rem, drop_zero]
    exact take_left
  · exact mem_of_mem_drop (mem_of_mem_take he)
  · rw [length_append, length_drop]
    omega

/-- The entries of a batch around one of them. -/
theorem take_drop_split {es : List HostEntry} {e : HostEntry} {i q k : Nat}
    (he : es[i]? = some e) (hq : q ≤ i) (hi : i < q + k) :
    (es.drop q).take k =
      (es.drop q).take (i - q) ++ e :: (es.drop (i + 1)).take (q + k - (i + 1)) := by
  obtain ⟨hi', rfl⟩ := List.getElem?_eq_some_iff.mp he
  have hdrop : es.drop q = (es.drop q).take (i - q) ++ es[i] :: es.drop (i + 1) := by
    rw [← drop_eq_getElem_cons hi']
    conv_lhs => rw [← take_append_drop (i - q) (es.drop q), drop_drop]
    rw [Nat.add_sub_cancel' hq]
  have hlen : ((es.drop q).take (i - q)).length = i - q := by
    rw [length_take_of_le]
    rw [length_drop]
    omega
  conv_lhs => rw [hdrop]
  rw [take_append, hlen, take_of_length_le (by omega),
    show k - (i - q) = q + k - (i + 1) + 1 by omega, take_succ_cons]

theorem of_mem_take_drop {es : List HostEntry} {e : HostEntry} {q k : Nat}
    (h : e ∈ (es.drop q).take k) : ∃ j, j < k ∧ es[q + j]? = some e := by
  obtain ⟨j, hj⟩ := mem_iff_getElem?.mp h
  rw [List.getElem?_take] at hj
  split at hj
  · rename_i hlt
    exact ⟨j, hlt, by rwa [List.getElem?_drop] at hj⟩
  · cases hj

/-- **The scan for a cookie** from the position `q` on, the entry with the cookie being the
`i`-th. -/
theorem wp_walkLoop {i : Nat} {e : HostEntry} (he : dir.entries[i]? = some e)
    (hQ : ∀ rd k pos', Holds rd ((dir.entries.drop (i + 1)).take k) →
      (i + 1 < dir.entries.length → 0 < k) → Q (.ok rd) pos') :
    ∀ (rounds q : Nat) (buf : List UInt8), q ≤ i → i - q < rounds → Takes buf dir →
      (walkLoop e.cookie rounds buf).wp dir.hostSpec Q q
  | 0, q, buf, _, hrounds, _ => absurd hrounds (Nat.not_lt_zero _)
  | rounds + 1, q, buf, hq, hrounds, hbuf => by
    have hi : i < dir.entries.length := (List.getElem?_eq_some_iff.mp he).1
    unfold walkLoop
    refine Prog.wp_bind.mpr (wp_newNoSeek (by omega) hbuf fun rd k hrd hle hk hlen => ?_)
    have hk' := hk (by omega)
    dsimp only [Outcome.andThen]
    have hsome : ¬ rd.remaining = 0 := by
      rw [hrd.remaining_eq_zero, ← length_eq_zero_iff, length_take, length_drop]
      omega
    rw [if_neg hsome]
    have hothers : ∀ n, (∀ j < n, q + j ≠ i) → ∀ e' ∈ (dir.entries.drop q).take n,
        e'.cookie ≠ e.cookie := by
      intro n hne e' he' hcookie
      obtain ⟨j, hj, hje⟩ := of_mem_take_drop he'
      exact hne j hj (HostDir.cookie_inj hje he hcookie)
    rcases Nat.lt_or_ge i (q + k) with hin | hout
    · -- The entry is in this batch.
      have hsplit := take_drop_split he hq hin
      have hcount : ((dir.entries.drop q).take (i - q)).length < rd.remaining + 1 := by
        have hle' := linux.length_le_records ((dir.entries.drop q).take k)
        rw [← hrd.remaining, hsplit, length_append] at hle'
        omega
      rw [hsplit] at hrd
      obtain ⟨rd', hmove, hrd', hbuf'⟩ := hrd.movePastLoop_of_mem
        (hothers (i - q) fun j hj => by omega) hcount
      rw [movePast, hmove]
      dsimp only
      by_cases hmore : rd'.remaining > 0
      · rw [if_pos hmore]
        refine hQ rd' _ _ hrd' fun _ => Nat.pos_of_ne_zero fun hzero => ?_
        rw [hzero, take_zero] at hrd'
        exact hmore.ne' (hrd'.remaining_eq_zero.mpr rfl)
      · rw [if_neg hmore]
        have hempty := hrd'.remaining_eq_zero.mp (Nat.eq_zero_of_not_pos hmore)
        rw [← length_eq_zero_iff, length_take, length_drop] at hempty
        have hnext : q + k = i + 1 := by omega
        have hbuf'' : Takes rd'.buf dir := fun e he => by
          rw [hbuf', hlen]
          exact hbuf e he
        rw [hnext]
        refine wp_newNoSeek (by omega) hbuf'' fun rd'' k' hrd'' _ hk'' _ => ?_
        exact hQ rd'' k' _ hrd'' hk''
    · -- It is further behind.
      obtain ⟨rd', hmove, hbuf'⟩ := hrd.movePastLoop_of_notMem
        (hothers k fun j hj => by omega) (rd.remaining + 1)
      rw [movePast, hmove]
      refine wp_walkLoop he hQ rounds (q + k) rd'.buf hout (by omega) fun e he => ?_
      rw [hbuf', hlen]
      exact hbuf e he

/-- **`new`** goes on behind the first `p` entries. -/
theorem wp_new {p pos rounds : Nat} (hp : p ≤ dir.entries.length)
    (hrounds : dir.entries.length < rounds) (hbuf : Takes buf dir)
    (hQ : ∀ rd k pos', Holds rd ((dir.entries.drop p).take k) → (p < dir.entries.length → 0 < k) →
      Q (.ok rd) pos') :
    (new rounds (dir.resume p) buf).wp dir.hostSpec Q pos := by
  refine ⟨trivial, fun r pos' hpost => ?_⟩
  obtain ⟨hstart, hcookie, hlarge⟩ := hpost
  have hread : (newNoSeek buf).wp dir.hostSpec Q p :=
    wp_newNoSeek hp hbuf fun rd k hrd _ hk _ => hQ rd k _ hrd hk
  cases p with
  | zero =>
    obtain ⟨⟨n, rfl⟩, rfl⟩ := hstart rfl
    exact hread
  | succ i =>
    have he := List.getElem?_eq_getElem hp
    rw [HostDir.resume_linux he] at hcookie hlarge ⊢
    rcases Nat.lt_or_ge I64_MAX (dir.entries[i]).cookie.toNat with hbig | hsmall
    · have hr := hlarge hbig
      subst hr
      have hwalk : ¬ (EINVAL ≠ EINVAL ∨ (dir.entries[i]).cookie.toNat ≤ I64_MAX) := by
        rintro (h | h)
        · exact h rfl
        · omega
      change Prog.wp dir.hostSpec (if EINVAL ≠ EINVAL ∨ _ then _ else _) Q pos'
      rw [if_neg hwalk]
      refine ⟨trivial, fun r pos'' hpost => ?_⟩
      obtain ⟨⟨n, rfl⟩, rfl⟩ := hpost.1 rfl
      exact wp_walkLoop he hQ rounds 0 buf (Nat.zero_le _) (by omega) hbuf
    · obtain ⟨⟨n, rfl⟩, rfl⟩ := hcookie i _ he rfl hsmall
      exact hread

end Linux.ReadDir

/-! ## 2. macOS -/

namespace Macos.ReadDir

variable {dir : HostDir .macos}

variable {Q : Outcome IoError Panic ReadDir → Nat → Prop}

/-- The directory is read to its end. -/
theorem wp_readLoop
    (hQ : ∀ pos', Q (.ok ⟨macos.records dir.entries, 0,
      (macos.records dir.entries).length, 0, 0⟩) pos') :
    ∀ (rounds q : Nat), q ≤ dir.entries.length → dir.entries.length - q < rounds →
      (readLoop rounds (macos.records (dir.entries.take q))).wp dir.hostSpec Q q
  | 0, q, _, hrounds => absurd hrounds (Nat.not_lt_zero _)
  | rounds + 1, q, hq, hrounds => by
    have hchunk : ∀ e ∈ dir.entries, macos.recordLen e ≤ CHUNK_SIZE := fun e he =>
      (dir.records e he).trans (by decide)
    refine ⟨trivial, fun r pos' hpost => ?_⟩
    obtain ⟨k, hle, hk, -, hr, rfl⟩ := HostDir.of_getdents hpost hq hchunk
    have hr' : r = Except.ok (macos.records ((dir.entries.drop q).take k)) := hr
    subst hr'
    have hbytes : macos.records (dir.entries.take q) ++
        macos.records ((dir.entries.drop q).take k) =
        macos.records (dir.entries.take (q + k)) := by
      rw [records, records, records, ← flatMap_append, take_add]
    by_cases hempty : (macos.records ((dir.entries.drop q).take k)).isEmpty
    · -- Nothing is left: the whole directory has been read.
      have hnil := records_eq_nil (isEmpty_iff.mp hempty)
      rw [← length_eq_zero_iff, length_take, length_drop] at hnil
      have hend : q = dir.entries.length := by omega
      change Prog.wp dir.hostSpec (if _ then _ else _) Q _
      rw [if_pos hempty, hend, take_length]
      exact hQ _
    · have hsome : k ≠ 0 := by
        rintro rfl
        exact hempty rfl
      change Prog.wp dir.hostSpec (if _ then _ else _) Q _
      rw [if_neg hempty, hbytes]
      exact wp_readLoop hQ rounds (q + k) hle (by omega)

/-- **`new`** reads the directory and leaves out the first `p` entries. -/
theorem wp_new {p pos rounds : Nat} (hp : p ≤ dir.entries.length)
    (hrounds : dir.entries.length < rounds)
    (hQ : ∀ rd pos', Yields rd (dir.listed.drop p) → Q (.ok rd) pos') :
    (new rounds (dir.resume p)).wp dir.hostSpec Q pos := by
  refine ⟨trivial, fun r pos' hpost => ?_⟩
  obtain ⟨⟨n, rfl⟩, rfl⟩ := hpost.1 rfl
  refine (Prog.wp_bind (p := newNoSeek rounds)).mpr
    (wp_readLoop (fun pos' => ?_) rounds 0 (Nat.zero_le _) (by omega))
  refine hQ _ pos' ?_
  have hholds : Holds ⟨macos.records dir.entries, 0,
      (macos.records dir.entries).length, (dir.resume p).toNat, 0⟩ dir.entries :=
    ⟨take_length, dir.records⟩
  have hyields := hholds.yields
  rw [HostDir.resume_macos hp] at hyields
  rw [HostDir.resume_macos hp]
  exact hyields

end Macos.ReadDir

/-! ## 3. Both systems -/

/-- A size for any record of the directory, of the host and of the protocol. -/
structure HostDir.Fits {os : HostOs} (dir : HostDir os) (size : Nat) : Prop where
  host : ∀ e ∈ dir.entries, os.recordLen e ≤ size
  fuse : ∀ d ∈ dir.listed, Server.recordLen (layoutSize false) d ≤ size

/-- A size of 0 fits only if there are no entries. -/
theorem HostDir.Fits.batch_nil {os : HostOs} {dir : HostDir os} {size p : Nat}
    (h : dir.Fits size) (hzero : size = 0) : dir.Batch p [] := by
  refine ⟨0, rfl, fun hlt => ?_⟩
  have hhost := h.host _ (getElem_mem hlt)
  have hpos := os.recordLen_pos dir.entries[p]
  omega

variable {p pos rounds size : Nat}

theorem Linux.wp_readdir {dir : HostDir .linux} (hp : p ≤ dir.entries.length)
    (hrounds : dir.entries.length < rounds) (hsize : dir.Fits size) :
    (Linux.readdir rounds size (dir.resume p)).wp dir.hostSpec
      (fun o _ => ∃ rd ds, o = .ok rd ∧ Yields rd ds ∧ dir.Batch p ds) pos := by
  unfold Linux.readdir
  split
  · rename_i h
    exact ⟨_, [], rfl, ⟨_, .nil _, rfl⟩, hsize.batch_nil h⟩
  · have hbuf : Linux.ReadDir.Takes (replicate size 0) dir := fun e he => by
      rw [length_replicate]
      exact hsize.host e he
    refine Linux.ReadDir.wp_new hp hrounds hbuf fun rd k _ hrd hk => ?_
    refine ⟨rd, _, rfl, hrd.yields, k, ?_, hk⟩
    rw [map_take, map_drop]
    rfl

theorem Macos.wp_readdir {dir : HostDir .macos} (hp : p ≤ dir.entries.length)
    (hrounds : dir.entries.length < rounds) (hsize : dir.Fits size) :
    (Macos.readdir rounds size (dir.resume p)).wp dir.hostSpec
      (fun o _ => ∃ rd ds, o = .ok rd ∧ Yields rd ds ∧ dir.Batch p ds) pos := by
  unfold Macos.readdir
  split
  · rename_i h
    exact ⟨_, [], rfl, ⟨_, .nil _, rfl⟩, hsize.batch_nil h⟩
  · refine Macos.ReadDir.wp_new hp hrounds fun rd _ hrd => ?_
    refine ⟨rd, _, rfl, hrd, dir.entries.length, ?_, fun hlt => by omega⟩
    rw [take_of_length_le]
    rw [length_drop, HostDir.length_listed]
    omega

/-- **Reading goes on behind the first `p` entries**, from any position of the descriptor. -/
theorem HostOs.wp_readdir {os : HostOs} {dir : HostDir os} (hp : p ≤ dir.entries.length)
    (hrounds : dir.entries.length < rounds) (hsize : dir.Fits size) :
    (os.readdir rounds size (dir.resume p)).wp dir.hostSpec
      (fun o _ => ∃ rd ds, o = .ok rd ∧ Yields rd ds ∧ dir.Batch p ds) pos := by
  cases os with
  | linux => exact Linux.wp_readdir hp hrounds hsize
  | macos => exact Macos.wp_readdir hp hrounds hsize

end Virtiofsd
