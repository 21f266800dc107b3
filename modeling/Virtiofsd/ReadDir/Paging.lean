/-
  # Listing a directory by pages

  The two layers together: READDIR of the server, with the call of the file system implemented
  by the reader of the host.  A guest lists a directory by sending one READDIR after the other,
  each at the offset of the last entry it has received.  Entries that were read from the host
  but did not fit into the reply are dropped, and are found again by the next request.
-/
import Virtiofsd.ReadDir.Reading
import Virtiofsd.Server.DirectoryReplies

namespace Virtiofsd

open Lib Server HostDir List Prog

/-! ## 1. The server over the host -/

/-- The calls below the server: those of the reader, and the others of the file system. -/
inductive SysCall where
  | host (c : DirHostCall)
  | rest (c : DirectoryCall)

def SysCall.Ans (os : HostOs) : SysCall → Type
  | host c => c.Ans
  | rest c => DirectoryCall.Ans os.ReadDir c

abbrev SysM (os : HostOs) := Prog (ServerAct SysCall) (ServerAct.Ans (SysCall.Ans os)) IoError Panic

/-- A call of the reader. -/
def callHost (os : HostOs) (c : DirHostCall) : SysM os c.Ans := .act (.fs (.host c)) .ret

/-- **The file system below the server**: `readdir` is the reader, the other calls stay. -/
def implement (os : HostOs) (rounds : Nat) : (a : ServerAct DirectoryCall) →
    SysM os (ServerAct.Ans (DirectoryCall.Ans os.ReadDir) a)
  | .copy addr bytes => .act (.copy addr bytes) .ret
  | .fs (.readdir _ _ _ size offset) =>
    ((os.readdir rounds size offset).expand (callHost os)).attempt
  | .fs (.lookup ctx parent name) => .act (.fs (.rest (.lookup ctx parent name))) .ret
  | .fs (.forget ctx inode count) => .act (.fs (.rest (.forget ctx inode count))) .ret

/-- **READDIR over the host.** -/
def readdirOn (os : HostOs) (rounds : Nat) (inHeader : Fuse.InHeader) (r : List UInt8)
    (w : Writer) : SysM os (Except Error Nat) :=
  (Server.readdir inHeader r w).expand (implement os rounds)

/-- What is expected of the host; the ghost state is the memory of the guest and the position
of the descriptor. -/
def HostDir.spec {os : HostOs} (dir : HostDir os) :
    Spec (ServerAct SysCall) (ServerAct.Ans (SysCall.Ans os)) (Memory × Nat) where
  pre _ _ := True
  post
    | .copy addr bytes, g, _, g' =>
      g' = (g.1.storeAt (List.range' addr bytes.length) bytes, g.2)
    | .fs (.host c), g, r, g' => g'.1 = g.1 ∧ dir.hostSpec.post c g.2 r g'.2
    | .fs (.rest _), g, _, g' => g' = g

/-! ## 2. One page -/

/-- The calls of a READDIR that goes on behind the first `p` entries. -/
def HostDir.Asks {os : HostOs} (dir : HostDir os) (p : Nat) : DirectoryCall → Prop
  | .readdir _ _ _ size offset => offset = dir.resume p ∧ dir.Fits size
  | .lookup .. => True
  | .forget .. => True

/-- The answers to them. -/
def HostDir.Answers {os : HostOs} (dir : HostDir os) (p : Nat) :
    (call : DirectoryCall) → DirectoryCall.Ans os.ReadDir call → Prop
  | .readdir .., (r : Except IoError os.ReadDir) =>
    ∃ rd ds, r = .ok rd ∧ Yields rd ds ∧ dir.Batch p ds
  | .lookup .., _ => True
  | .forget .., _ => True

section

variable {os : HostOs} {dir : HostDir os} {p rounds : Nat}

/-- The calls of the reader leave the memory of the guest alone. -/
theorem wp_hostCalls {α : Type} {prog : DirHostM α} {Q : Outcome IoError Panic α → Nat → Prop}
    {g : Memory × Nat} (hprog : prog.wp dir.hostSpec Q g.2) :
    (prog.expand (callHost os)).wp dir.spec (fun o g' => g'.1 = g.1 ∧ Q o g'.2) g := by
  have hcall : ∀ (c : DirHostCall) (g₁ : Memory × Nat) (pos : Nat), (g₁.1 = g.1 ∧ g₁.2 = pos) →
      dir.hostSpec.pre c pos → (callHost os c).wp dir.spec (fun o g' => ∃ r pos', o = .ok r ∧
        dir.hostSpec.post c pos r pos' ∧ g'.1 = g.1 ∧ g'.2 = pos') g₁ := by
    rintro c g₁ pos ⟨hm, rfl⟩ -
    refine ⟨trivial, fun r g' hpost => ?_⟩
    exact ⟨r, g'.2, rfl, hpost.2, hpost.1.trans hm, rfl⟩
  refine wp_mono ?_ _ (wp_expand hcall prog hprog ⟨rfl, rfl⟩)
  rintro o g' ⟨pos', ⟨hm, rfl⟩, hQ⟩
  exact ⟨hm, hQ⟩

/-- **The reader is the file system that the server expects.** -/
theorem wp_implement (hp : p ≤ dir.entries.length) (hrounds : dir.entries.length < rounds)
    (a : ServerAct DirectoryCall) (g : Memory × Nat)
    (above : Memory × List (Sigma (DirectoryCall.Ans os.ReadDir))) (hmemory : g.1 = above.1)
    (hpre : (serving (dir.Asks p) (dir.Answers p)).pre a above) :
    (implement os rounds a).wp dir.spec (fun o g' => ∃ r above', o = .ok r ∧
      (serving (dir.Asks p) (dir.Answers p)).post a above r above' ∧ g'.1 = above'.1) g := by
  cases a with
  | copy addr bytes =>
    refine ⟨trivial, fun r g' hpost => ⟨r, _, rfl, rfl, ?_⟩⟩
    rw [hpost, hmemory]
  | fs call =>
    cases call with
    | readdir ctx inode handle size offset =>
      obtain ⟨rfl, hsize⟩ := hpre
      refine wp_attempt.mpr (wp_mono ?_ _
        (wp_hostCalls (g := g) (HostOs.wp_readdir hp hrounds hsize)))
      rintro o g' ⟨hm, rd, ds, rfl, hyields, hbatch⟩
      exact ⟨_, _, rfl, ⟨⟨rd, ds, rfl, hyields, hbatch⟩, rfl⟩, hm.trans hmemory⟩
    | lookup | forget =>
      refine ⟨trivial, fun r g' hpost => ⟨r, _, rfl, ⟨trivial, rfl⟩, ?_⟩⟩
      rw [hpost, hmemory]

/-- What is told of an entry has its name. -/
theorem HostOs.exists_of_mem_listed {es : List HostEntry} {d : DirEntry} (h : d ∈ os.listed es) :
    ∃ e ∈ es, d.name = e.name := by
  cases os with
  | linux =>
    obtain ⟨e, he, rfl⟩ := mem_map.mp h
    exact ⟨e, he, rfl⟩
  | macos =>
    obtain ⟨n, hn⟩ := mem_iff_getElem?.mp h
    rw [HostOs.listed, getElem?_numbered] at hn
    obtain ⟨e, he, rfl⟩ := Option.map_eq_some_iff.mp hn
    exact ⟨e, mem_of_getElem? he, rfl⟩

theorem HostDir.length_name {d : DirEntry} (h : d ∈ dir.listed) : d.name.length < 2 ^ 16 := by
  obtain ⟨e, he, hname⟩ := HostOs.exists_of_mem_listed h
  have hrecord := dir.records e he
  have hmax : os.maxRecord < 2 ^ 16 := by cases os <;> decide
  rw [HostOs.recordLen, HostEntry.tail, length_append] at hrecord
  rw [hname]
  omega

/-- What the server takes off the size does not matter. -/
theorem HostDir.Fits.capped {size : Nat} (h : dir.Fits size) :
    dir.Fits (min size MAX_BUFFER_SIZE) := by
  have hcap : MAX_BUFFER_SIZE = 2 ^ 20 := rfl
  have hmax : os.maxRecord < 2 ^ 16 := by cases os <;> decide
  refine ⟨fun e he => ?_, fun d hd => ?_⟩
  · have hhost := h.host e he
    have hrecord := dir.records e he
    omega
  · have hfuse := h.fuse d hd
    have hname := length_name hd
    have hround := roundUp8_lt (Fuse.Dirent.size + d.name.length)
    have hdirent : Fuse.Dirent.size = 24 := rfl
    have hlayout : layoutSize false = 0 := rfl
    rw [Server.recordLen] at hfuse ⊢
    omega

theorem HostDir.Batch.subset {ds : List DirEntry} (h : dir.Batch p ds) : ds ⊆ dir.listed := by
  obtain ⟨k, rfl, -⟩ := h
  exact fun d hd => mem_of_mem_drop (mem_of_mem_take hd)

/-- A reply that holds as much of a batch as fits is a batch. -/
theorem HostDir.Batch.of_encodes {ds : List DirEntry} {size : Nat} {unique : UInt64}
    {reply : List UInt8} (h : dir.Batch p ds) (hsize : dir.Fits size)
    (hreply : EncodesPrefix false size unique ds reply) :
    dir.Batch p
      ((replyRecords false reply).map fun x => decodeDirent (layoutSize false) x.2) := by
  obtain ⟨k, hds, hk⟩ := h
  obtain ⟨n, hn, hdecoded, -, hlongest⟩ := hreply.decoded
  refine ⟨min n k, ?_, fun hlt => ?_⟩
  · rw [hdecoded, hds, take_take]
  · have hk' := hk hlt
    have hlen : ds.length = min k (dir.entries.length - p) := by
      rw [hds, length_take, length_drop, length_listed]
    -- The first entry always fits.
    have hone : listLen false (ds.take 1) ≤ size := by
      obtain ⟨d, rest, rfl⟩ := exists_cons_of_length_pos (show 0 < ds.length by omega)
      have hmem : d ∈ dir.listed := Batch.subset ⟨k, hds, hk⟩ mem_cons_self
      simpa [listLen] using hsize.fuse d hmem
    have hfirst := hlongest 1 (by omega) hone
    omega

end

/-- **A READDIR and its reply**: a message that the server can decode, a chain with room for
the reply, and a run of the server over a host that behaves as expected. -/
structure Exchange {os : HostOs} (dir : HostDir os) (rounds : Nat) where
  inHeader : Fuse.InHeader
  message : List UInt8
  args : Fuse.ReadIn
  decodes : Fuse.ReadIn.readObj message = .ok args
  space : ReplySpace
  room : Fuse.OutHeader.size + min args.size.toNat MAX_BUFFER_SIZE ≤ space.length
  start : Memory × Nat
  stop : Memory × Nat
  outcome : Outcome IoError Panic (Except Error Nat)
  log : List (Sigma (ServerAct.Ans (SysCall.Ans os)))
  ends : (readdirOn os rounds inHeader message space.writer).Ends outcome log
  follows : dir.spec.Follows start log stop

namespace Exchange

variable {os : HostOs} {dir : HostDir os} {p rounds : Nat}

/-- What the guest finds in its memory. -/
def reply (x : Exchange dir rounds) : List UInt8 := x.space.read x.stop.1

/-- The entries that it decodes. -/
def entries (x : Exchange dir rounds) : List DirEntry :=
  (replyRecords false x.reply).map fun record => decodeDirent (layoutSize false) record.2

/-- The request was answered, and not with an error. -/
def Succeeds (x : Exchange dir rounds) : Prop :=
  x.outcome = .ok (.ok (headerLen x.reply)) ∧ headerError x.reply = 0

/-- **One page.** -/
theorem batch_of_resume (x : Exchange dir rounds) (hp : p ≤ dir.entries.length)
    (hrounds : dir.entries.length < rounds) (hoffset : x.args.offset = dir.resume p)
    (hsize : dir.Fits x.args.size.toNat) : x.Succeeds ∧ dir.Batch p x.entries := by
  have hrequest : (request false x.inHeader x.message x.space.writer).wp
      (serving (dir.Asks p) (dir.Answers p)) (fun o g => ∃ ds, dir.Batch p ds ∧
        EncodedPost false (min x.args.size.toNat MAX_BUFFER_SIZE) x.inHeader.unique ds x.space o g)
      (x.start.1, []) :=
    wp_request (dir.Batch p) x.decodes x.room (fun answer h => h) (nomatch ·)
      ⟨hoffset, hsize.capped⟩ (nomatch ·)
      fun ds hds d hd => (length_name (hds.subset hd)).trans (by decide)
  have hrun := wp_expand (wp_implement hp hrounds) _ hrequest (h := x.start) rfl
  obtain ⟨calls, hmemory, ds, hds, hreturns, hencodes⟩ :=
    of_wp_follows _ hrun x.ends x.follows
  rw [← hmemory] at hreturns hencodes
  exact ⟨⟨hreturns, hencodes.error⟩, hds.of_encodes hsize.capped hencodes⟩

end Exchange

/-! ## 3. The whole listing -/

/-- Where a guest goes on: the offset of the last entry, and 0 at the start. -/
def lastOffset (ds : List DirEntry) : UInt64 := (ds.getLast?.map DirEntry.offset).getD 0

section

variable {os : HostOs} {dir : HostDir os} {rounds : Nat}

/-- The entries received in the first `i` exchanges. -/
def received (x : Nat → Exchange dir rounds) (i : Nat) : List DirEntry :=
  (List.range i).flatMap fun j => (x j).entries

theorem received_succ (x : Nat → Exchange dir rounds) (i : Nat) :
    received x (i + 1) = received x i ++ (x i).entries := by
  rw [received, range_succ, flatMap_append, flatMap_singleton]
  rfl

/-- **A listing by pages**: sizes that are large enough, each request at the offset of the last
entry received. -/
structure ByPages (x : Nat → Exchange dir rounds) : Prop where
  sizes : ∀ i, dir.Fits (x i).args.size.toNat
  offsets : ∀ i, (x i).args.offset = lastOffset (received x i)

variable {x : Nat → Exchange dir rounds}

/-- What has been received is the front of the directory, and the next page goes on there. -/
theorem ByPages.page (h : ByPages x) (hrounds : dir.entries.length < rounds) (i : Nat)
    (hreceived : received x i = dir.listed.take (received x i).length) :
    (x i).Succeeds ∧ dir.Batch (received x i).length (x i).entries := by
  refine (x i).batch_of_resume ?_ hrounds ?_ (h.sizes i)
  · rw [hreceived, length_take, length_listed]
    exact Nat.min_le_right _ _
  · rw [h.offsets, resume, ← hreceived]
    rfl

theorem ByPages.received_eq (h : ByPages x) (hrounds : dir.entries.length < rounds) :
    ∀ i, received x i = dir.listed.take (received x i).length
  | 0 => rfl
  | i + 1 => by
    have hreceived := h.received_eq hrounds i
    obtain ⟨-, k, hentries, -⟩ := h.page hrounds i hreceived
    have hmore : received x (i + 1) = dir.listed.take ((received x i).length + k) := by
      rw [received_succ, hentries, take_add, ← hreceived]
    rw [hmore, length_take, ← take_eq_take_min]

/-- Only the last page is empty. -/
theorem ByPages.eq_listed_of_nil (h : ByPages x) (hrounds : dir.entries.length < rounds) {i : Nat}
    (hnil : (x i).entries = []) : received x i = dir.listed := by
  have hreceived := h.received_eq hrounds i
  obtain ⟨-, k, hentries, hk⟩ := h.page hrounds i hreceived
  rw [hreceived]
  refine take_of_length_le ?_
  rw [hnil, eq_comm, ← length_eq_zero_iff, length_take, length_drop,
    length_listed] at hentries
  rw [length_listed]
  omega

/-- Pages with entries add up. -/
theorem le_length_received (hsome : ∀ i, (x i).entries ≠ []) : ∀ i, i ≤ (received x i).length
  | 0 => Nat.zero_le _
  | i + 1 => by
    have hle := le_length_received hsome i
    have hpos := length_pos_iff.mpr (hsome i)
    rw [received_succ, length_append]
    omega

/-- **Listing a directory by pages is exact.**  No request fails; pages with entries are
followed by an empty one, and together they are the directory, each entry once and in
order. -/
theorem listing_by_pages_exact (hrounds : dir.entries.length < rounds)
    (x : Nat → Exchange dir rounds) (hpages : ByPages x) :
    (∀ i, (x i).Succeeds) ∧ ∃ n, (∀ i < n, (x i).entries ≠ []) ∧
      received x n = dir.listed ∧ (x n).entries = [] := by
  refine ⟨fun i => (hpages.page hrounds i (hpages.received_eq hrounds i)).1, ?_⟩
  have hends : ∃ n, (x n).entries = [] := by
    by_contra hsome
    have hle := le_length_received (not_exists.mp hsome) (dir.entries.length + 1)
    rw [hpages.received_eq hrounds, length_take, HostDir.length_listed] at hle
    omega
  classical
  refine ⟨Nat.find hends, fun i hi => Nat.find_min hends hi, ?_, Nat.find_spec hends⟩
  exact hpages.eq_listed_of_nil hrounds (Nat.find_spec hends)

end

/-! ## 4. A host -/

section Host

variable {os : HostOs} (dir : HostDir os)

/-- **A host with this directory**, which returns one record at a time. -/
def HostDir.answer : (c : DirHostCall) → Nat → c.Ans × Nat
  | .lseek offset, pos =>
    if offset = 0 then ((.ok 0 : Except Errno Nat), 0)
    else if Linux.I64_MAX < offset.toNat then ((.error EINVAL : Except Errno Nat), pos)
    else
      match dir.entries.findIdx? (·.cookie = offset) with
      | some i => ((.ok (i + 1) : Except Errno Nat), i + 1)
      | none => ((.error EINVAL : Except Errno Nat), pos)
  | .getdents size, pos =>
    match dir.entries[pos]? with
    | none => ((.ok [] : Except Errno (List UInt8)), pos)
    | some e =>
      if os.recordLen e ≤ size then ((.ok (os.record e) : Except Errno (List UInt8)), pos + 1)
      else ((.error EINVAL : Except Errno (List UInt8)), pos)

theorem HostDir.answer_meets (c : DirHostCall) (pos : Nat) :
    dir.hostSpec.post c pos (dir.answer c pos).1 (dir.answer c pos).2 := by
  cases c with
  | lseek offset =>
    dsimp only [answer]
    split_ifs with hzero hlarge
    · refine ⟨fun _ => ⟨⟨0, rfl⟩, rfl⟩, fun i e he hcookie _ => ?_, fun hlarge => ?_⟩
      · exact absurd (hcookie.trans hzero) (cookie_ne_zero (mem_of_getElem? he))
      · rw [hzero] at hlarge
        exact absurd hlarge (by decide)
    · exact ⟨fun h => absurd h hzero, fun i e _ _ hsmall => absurd hlarge (by omega), fun _ => rfl⟩
    · refine ⟨fun h => absurd h hzero, fun i e he hcookie _ => ?_, fun h => absurd h hlarge⟩
      have hfind : dir.entries.findIdx? (·.cookie = offset) = some i := by
        obtain ⟨hi, rfl⟩ := List.getElem?_eq_some_iff.mp he
        refine List.findIdx?_eq_some_iff_getElem.mpr ⟨hi, by simpa using hcookie, fun j hj => ?_⟩
        intro hcookie'
        have hlt : j < dir.entries.length := by omega
        have heq := cookie_inj (List.getElem?_eq_getElem hlt) he
          ((of_decide_eq_true hcookie').trans hcookie.symm)
        omega
      rw [hfind]
      exact ⟨⟨_, rfl⟩, rfl⟩
  | getdents size =>
    dsimp only [hostSpec]
    cases hentry : dir.entries[pos]? with
    | none =>
      rw [answer, hentry]
      exact ⟨rfl, rfl⟩
    | some e =>
      intro hsize
      obtain ⟨hlt, rfl⟩ := List.getElem?_eq_some_iff.mp hentry
      have hrecords : os.records ((dir.entries.drop pos).take 1) = os.record dir.entries[pos] := by
        rw [drop_eq_getElem_cons hlt, take_succ_cons, take_zero,
          HostOs.records_cons, HostOs.records_nil, append_nil]
      have hanswer : dir.answer (.getdents size) pos =
          ((.ok (os.record dir.entries[pos]) : Except Errno (List UInt8)), pos + 1) := by
        rw [answer, hentry]
        exact if_pos hsize
      rw [hanswer]
      refine ⟨1, one_pos, hlt, ?_, ?_, rfl⟩
      · rw [hrecords, HostOs.length_record]
        exact hsize
      · rw [hrecords]

/-- The host below the server. -/
def HostDir.serve : (a : ServerAct SysCall) → Memory × Nat →
    ServerAct.Ans (SysCall.Ans os) a × (Memory × Nat)
  | .copy addr bytes, g => ((), g.1.storeAt (List.range' addr bytes.length) bytes, g.2)
  | .fs (.host c), g => ((dir.answer c g.2).1, g.1, (dir.answer c g.2).2)
  | .fs (.rest (.readdir ..)), g => ((.error (.os ENOENT) : Except IoError os.ReadDir), g)
  | .fs (.rest (.lookup ..)), g => ((.error (.os ENOENT) : Except IoError Server.Entry), g)
  | .fs (.rest (.forget ..)), g => ((), g)

theorem HostDir.serve_meets (a : ServerAct SysCall) (g : Memory × Nat) :
    dir.spec.post a g (dir.serve a g).1 (dir.serve a g).2 := by
  match a with
  | .copy addr bytes => exact rfl
  | .fs (.host c) => exact ⟨rfl, dir.answer_meets c g.2⟩
  | .fs (.rest (.readdir ..)) => exact rfl
  | .fs (.rest (.lookup ..)) => exact rfl
  | .fs (.rest (.forget ..)) => exact rfl

/-- The bytes of a request for 100 bytes. -/
def pageMessage (offset : UInt64) : List UInt8 :=
  fieldBytes [(8, 0), (8, offset.toNat), (4, 100), (20, 0)]

theorem readObj_pageMessage (offset : UInt64) :
    Fuse.ReadIn.readObj (pageMessage offset) = .ok ⟨0, offset, 100⟩ := by
  have hlen : (pageMessage offset).length = 40 := length_fieldBytes _
  have hfh := fieldAt_fieldBytes [] 8 0 [(8, offset.toNat), (4, 100), (20, 0)] []
  have hoffset := fieldAt_fieldBytes [(8, 0)] 8 offset.toNat [(4, 100), (20, 0)] []
  have hsize := fieldAt_fieldBytes [(8, 0), (8, offset.toNat)] 4 100 [(20, 0)] []
  rw [append_nil] at hfh hoffset hsize
  have h₀ : fieldAt (pageMessage offset) 0 8 = 0 := hfh
  have h₁ : fieldAt (pageMessage offset) 8 8 = offset.toNat % 256 ^ 8 := hoffset
  have h₂ : fieldAt (pageMessage offset) 16 4 = 100 := hsize
  rw [Fuse.ReadIn.readObj, if_neg (by omega), h₀, h₁, h₂, ofNat_toNat_mod_64]
  rfl

/-- A request at an offset, answered by this host. -/
def HostDir.exchange (rounds : Nat) (offset : UInt64) (g : Memory × Nat) : Exchange dir rounds where
  inHeader := sampleHeader
  message := pageMessage offset
  args := ⟨0, offset, 100⟩
  decodes := readObj_pageMessage offset
  space := sampleSpace
  room := show 16 + min 100 MAX_BUFFER_SIZE ≤ sampleSpace.length by decide
  start := g
  stop := ((readdirOn os rounds sampleHeader (pageMessage offset) sampleSpace.writer).run
    dir.serve g).2
  outcome := _
  log := _
  ends := run_ends dir.serve _ g
  follows := follows_trace dir.serve_meets _ g

/-- The entries received in the first `i` pages, and the state behind them. -/
def HostDir.pages (rounds : Nat) : Nat → List DirEntry × (Memory × Nat)
  | 0 => ([], fun _ => 0, 0)
  | i + 1 =>
    let before := pages rounds i
    let x := dir.exchange rounds (lastOffset before.1) before.2
    (before.1 ++ x.entries, x.stop)

/-- The exchanges of a listing. -/
def HostDir.page (rounds i : Nat) : Exchange dir rounds :=
  dir.exchange rounds (lastOffset (dir.pages rounds i).1) (dir.pages rounds i).2

theorem HostDir.received_page (rounds : Nat) :
    ∀ i, received (dir.page rounds) i = (dir.pages rounds i).1
  | 0 => rfl
  | i + 1 => by
    rw [received_succ, received_page rounds i]
    rfl

/-- **There is a listing of every directory** whose records fit. -/
theorem HostDir.byPages_page (rounds : Nat) (hsize : dir.Fits 100) :
    ByPages (dir.page rounds) where
  sizes _ := hsize
  offsets i := by
    rw [received_page]
    rfl

end Host

/-- Two entries; the host does not take the cookie of the second. -/
def sampleDir (os : HostOs) : HostDir os where
  entries := [⟨5, 1, 8, [97], [], by decide⟩,
    ⟨6, 9223372036854775808, 4, [98, 99], [0, 0], by decide⟩]
  cookies := by decide
  records := by cases os <;> decide

theorem sampleDir_fits (os : HostOs) : (sampleDir os).Fits 100 := by
  refine ⟨?_, ?_⟩ <;> cases os <;> decide

theorem listing_by_pages_exact_sample :
    (∃ n, received ((sampleDir .linux).page 3) n = (sampleDir .linux).listed) ∧
      ∃ n, received ((sampleDir .macos).page 3) n = (sampleDir .macos).listed := by
  have h : ∀ os, ∃ n, received ((sampleDir os).page 3) n = (sampleDir os).listed := by
    intro os
    obtain ⟨-, n, -, hreceived, -⟩ := listing_by_pages_exact (Nat.lt_succ_self 2)
      ((sampleDir os).page 3) ((sampleDir os).byPages_page 3 (sampleDir_fits os))
    exact ⟨n, hreceived⟩
  exact ⟨h .linux, h .macos⟩

end Virtiofsd
