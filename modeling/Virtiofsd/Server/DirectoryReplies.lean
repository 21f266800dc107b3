/-
  # The replies to READDIR and READDIRPLUS (`server.rs`)

  What the guest finds in its memory when one of the two requests has returned.  The decoder
  is written from the layout of the protocol, not from the encoder: a record is an `EntryOut`
  (READDIRPLUS only), a `Dirent`, the name, and zeros up to a multiple of 8.
-/
import Virtiofsd.Server.Listing

namespace Virtiofsd

open Lib Fuse List Prog

namespace Server

/-! ## 1. The guest's view of a reply -/

/-- **The writable part of a chain**: slices of guest memory that do not overlap. -/
structure ReplySpace where
  slices : List VolatileSlice
  distinct : (addrs slices).Nodup
  fits : totalLen slices < usizeSize

namespace ReplySpace

/-- The number of bytes. -/
def length (space : ReplySpace) : Nat := totalLen space.slices

/-- `Writer::new`. -/
def writer (space : ReplySpace) : Writer := ⟨space.slices, 0, by simpa using space.fits⟩

/-- The bytes that the guest finds there. -/
def read (space : ReplySpace) (m : Memory) : List UInt8 := (addrs space.slices).map m

end ReplySpace

/-- The fields of the header of a reply. -/
def headerLen (reply : List UInt8) : Nat := fieldAt reply 0 4
def headerError (reply : List UInt8) : Nat := fieldAt reply 4 4
def headerUnique (reply : List UInt8) : Nat := fieldAt reply 8 8

/-- What the header says to follow it. -/
def replyBody (reply : List UInt8) : List UInt8 :=
  (reply.take (headerLen reply)).drop Fuse.OutHeader.size

/-- **The format of the records**: `Dirent` with a name behind `n` bytes, 0 or an `EntryOut`. -/
def direntFraming (n : Nat) : Framing where
  fixed := n + Fuse.Dirent.size
  lengthOf record := n + roundUp8 (Fuse.Dirent.size + fieldAt record (n + 16) 4)

/-- The entry of a record. -/
def decodeDirent (n : Nat) (record : List UInt8) : DirEntry where
  ino := .ofNat (fieldAt record n 8)
  offset := .ofNat (fieldAt record (n + 8) 8)
  type := .ofNat (fieldAt record (n + 20) 4)
  name := (record.drop (n + Fuse.Dirent.size)).take (fieldAt record (n + 16) 4)

/-- The inode that a record of a READDIRPLUS names. -/
def decodeNodeid (record : List UInt8) : UInt64 := .ofNat (fieldAt record 0 8)

/-- The records of a reply, with their positions behind the header. -/
def replyRecords (plus : Bool) (reply : List UInt8) : List (Nat × List UInt8) :=
  (direntFraming (layoutSize plus)).records (replyBody reply)

/-! ## 2. Decoding a record -/

section Decode

variable {d : DirEntry} {entry : Option Entry} {plus : Bool}

section

variable (hplus : entry.isSome = plus)

include hplus

/-- A field of the `Dirent` of a record. -/
theorem fieldAt_recordBytes (before : Fields) (w n : Nat) (after : Fields) (rest : List UInt8)
    (hfields : before ++ (w, n) :: after = [(8, d.ino.toNat), (8, d.offset.toNat),
      (4, (UInt32.ofNat d.name.length).toNat), (4, d.type.toNat)]) :
    fieldAt (recordBytes d entry ++ rest) (layoutSize plus + (before.map Prod.fst).sum) w =
      n % 256 ^ w := by
  have hbytes : recordBytes d entry ++ rest = entryBytes entry ++
      (fieldBytes (before ++ (w, n) :: after) ++
        (d.name ++ (replicate (paddingLen d) 0 ++ rest))) := by
    rw [hfields]
    simp [recordBytes, direntOf, Dirent.asSlice]
  have hlen := length_entryBytes hplus
  rw [hbytes, fieldAt_append_right (by omega), hlen, Nat.add_sub_cancel_left, fieldAt_fieldBytes]

theorem fieldAt_namelen (hname : d.name.length < 2 ^ 32) (rest : List UInt8) :
    fieldAt (recordBytes d entry ++ rest) (layoutSize plus + 16) 4 = d.name.length := by
  have h := fieldAt_recordBytes (d := d) hplus [(8, d.ino.toNat), (8, d.offset.toNat)] 4 _
    [(4, d.type.toNat)] rest rfl
  refine h.trans ?_
  simp only [UInt32.toNat_ofNat']
  omega

/-- A record gives its own length. -/
theorem isRecord_recordBytes (hname : d.name.length < 2 ^ 32) :
    (direntFraming (layoutSize plus)).IsRecord (recordBytes d entry) := by
  have hlen := length_recordBytes hplus d
  have hround := le_roundUp8 (Dirent.size + d.name.length)
  obtain ⟨k, hk⟩ := recordLen_pos (layoutSize plus) d
  refine ⟨?_, ?_, fun rest => ?_⟩
  · intro hnil
    rw [hnil, hk] at hlen
    cases hlen
  · rw [hlen]
    unfold direntFraming recordLen
    dsimp only
    omega
  · rw [hlen]
    dsimp only [direntFraming]
    rw [fieldAt_namelen hplus hname, recordLen]

/-- **The entry of a record is the one that was written.** -/
theorem decodeDirent_recordBytes (hname : d.name.length < 2 ^ 32) :
    decodeDirent (layoutSize plus) (recordBytes d entry) = d := by
  have hino := fieldAt_recordBytes (d := d) hplus [] 8 d.ino.toNat _ [] rfl
  have hoff := fieldAt_recordBytes (d := d) hplus [(8, d.ino.toNat)] 8 d.offset.toNat _ [] rfl
  have htype := fieldAt_recordBytes (d := d) hplus [(8, d.ino.toNat), (8, d.offset.toNat), (4, _)] 4
    d.type.toNat [] [] rfl
  have hnamelen := fieldAt_namelen hplus hname []
  rw [append_nil] at hino hoff htype hnamelen
  have hdrop : (recordBytes d entry).drop (layoutSize plus + Dirent.size) =
      d.name ++ replicate (paddingLen d) 0 := by
    rw [recordBytes, append_assoc _ d.name]
    refine drop_left' ?_
    rw [length_append, length_entryBytes hplus, Dirent.length_asSlice]
  have h₀ : fieldAt (recordBytes d entry) (layoutSize plus) 8 = d.ino.toNat % 256 ^ 8 := hino
  have h₁ : fieldAt (recordBytes d entry) (layoutSize plus + 8) 8 = d.offset.toNat % 256 ^ 8 := hoff
  have h₂ : fieldAt (recordBytes d entry) (layoutSize plus + 20) 4 = d.type.toNat % 256 ^ 4 := htype
  unfold decodeDirent
  rw [h₀, h₁, h₂, hnamelen, hdrop, take_left, ofNat_toNat_mod_64, ofNat_toNat_mod_64,
    ofNat_toNat_mod_32]

end

theorem decodeNodeid_recordBytes (e : Entry) : decodeNodeid (recordBytes d (some e)) = e.inode := by
  have hfield : fieldAt (recordBytes d (some e)) 0 8 = e.inode.toNat % 256 ^ 8 := by
    rw [recordBytes, append_assoc, append_assoc]
    exact fieldAt_fieldBytes [] 8 e.inode.toNat _ _
  rw [decodeNodeid, hfield, ofNat_toNat_mod_64]

end Decode

/-- The records of a reply with these entries. -/
theorem records_sentBytes {sent : List Sent} {plus : Bool} (hlayout : ∀ s ∈ sent, s.2.isSome = plus)
    (hnames : ∀ s ∈ sent, s.1.name.length < 2 ^ 32) :
    (direntFraming (layoutSize plus)).records (sentBytes sent) =
      Framing.placed 0 (sent.map fun s => recordBytes s.1 s.2) := by
  rw [sentBytes, flatMap_def]
  refine Framing.records_flatten fun bytes hbytes => ?_
  obtain ⟨s, hs, rfl⟩ := mem_map.mp hbytes
  exact isRecord_recordBytes (hlayout s hs) (hnames s hs)

/-! ## 3. The header -/

/-- The header of a reply with `len` bytes behind it. -/
def okHeader (len : Nat) (unique : UInt64) : Fuse.OutHeader where
  len := .ofNat (Fuse.OutHeader.size + len)
  error := 0
  unique := unique

/-- The header of an error. -/
def errorHeader (e : IoError) (unique : UInt64) : Fuse.OutHeader where
  len := .ofNat Fuse.OutHeader.size
  error := -Int32.ofNat (e.rawOsError.getD EIO)
  unique := unique

section Header

variable (h : Fuse.OutHeader)

variable (rest : List UInt8)

theorem headerLen_append :
    headerLen (h.asSlice ++ rest) = h.len.toNat := by
  have hfield := fieldAt_fieldBytes [] 4 h.len.toNat
    [(4, h.error.toUInt32.toNat), (8, h.unique.toNat)] rest
  exact hfield.trans (Nat.mod_eq_of_lt h.len.toNat_lt)

theorem headerError_append :
    headerError (h.asSlice ++ rest) = h.error.toUInt32.toNat := by
  have hfield := fieldAt_fieldBytes [(4, h.len.toNat)] 4 h.error.toUInt32.toNat
    [(8, h.unique.toNat)] rest
  exact hfield.trans (Nat.mod_eq_of_lt h.error.toUInt32.toNat_lt)

theorem headerUnique_append :
    headerUnique (h.asSlice ++ rest) = h.unique.toNat := by
  have hfield := fieldAt_fieldBytes [(4, h.len.toNat), (4, h.error.toUInt32.toNat)] 8
    h.unique.toNat [] rest
  exact hfield.trans (Nat.mod_eq_of_lt h.unique.toNat_lt)

variable {h}

theorem replyBody_append {n : Nat} (hlen : h.len.toNat = OutHeader.size + n)
    (rest : List UInt8) :
    replyBody (h.asSlice ++ rest) = rest.take n := by
  rw [replyBody, headerLen_append, hlen, ← OutHeader.length_asSlice h, take_length_add_append,
    drop_left]

end Header

section Replies

variable {F : Type} {R : F → Type} {allowed : F → Prop} {ok : (call : F) → R call → Prop}
  {m : Memory}
  {calls : List (Sigma R)} {w : Writer} {unique : UInt64}
  {Q : Outcome IoError Panic (Except Error Nat) → Memory × List (Sigma R) → Prop}

theorem wp_replyReaddir {len : Nat} (hroom : OutHeader.size ≤ w.availableBytes)
    (hlen : OutHeader.size + len < 2 ^ 32)
    (hQ : Q (.ok (.ok (OutHeader.size + len)))
      (m.storeAt (addrs w.buffers) (okHeader len unique).asSlice, calls)) :
    (replyReaddir len unique w : M R (Except Error Nat)).wp (serving allowed ok) Q (m, calls) := by
  refine wp_bind.mpr (wp_attempt.mpr (Writer.wp_writeAll _ _ ?_ fun hfull => ?_))
  · intro _ w' _ _
    have hret : (UInt32.ofNat (OutHeader.size + len)).toNat = OutHeader.size + len := by
      rw [UInt32.toNat_ofNat', Nat.mod_eq_of_lt hlen]
    dsimp only [attemptPost, Outcome.andThen, pure_eq, wp_ret]
    rwa [hret]
  · rw [OutHeader.length_asSlice] at hfull
    omega

theorem wp_replyError {e : IoError} (hroom : OutHeader.size ≤ w.availableBytes)
    (hQ : Q (.ok (.ok (w.bytesConsumed + OutHeader.size)))
      (m.storeAt (addrs w.buffers) (errorHeader e unique).asSlice, calls)) :
    (replyError e unique w : M R (Except Error Nat)).wp (serving allowed ok) Q (m, calls) := by
  refine wp_bind.mpr (wp_attempt.mpr (Writer.wp_writeAll _ _ ?_ fun hfull => ?_))
  · intro _ w' _ hconsumed
    rw [OutHeader.length_asSlice] at hconsumed
    dsimp only [attemptPost, Outcome.andThen, pure_eq, wp_ret]
    rwa [hconsumed]
  · rw [OutHeader.length_asSlice] at hfull
    omega

end Replies

/-! ## 4. The whole request -/

namespace ReplySpace

variable (space : ReplySpace)

/-- Where the header goes, and what comes after it. -/
def headerAddrs : List Nat := (addrs space.slices).take Fuse.OutHeader.size
def bodyAddrs : List Nat := (addrs space.slices).drop Fuse.OutHeader.size

theorem length_bodyAddrs : space.bodyAddrs.length = space.length - OutHeader.size := by
  rw [bodyAddrs, length_drop, length_addrs]
  rfl

theorem nodup_headerAddrs : space.headerAddrs.Nodup :=
  space.distinct.sublist (take_sublist _ _)

theorem nodup_bodyAddrs : space.bodyAddrs.Nodup := space.distinct.sublist (drop_sublist _ _)

variable {space}

/-- The guest finds the header in front of what was written before. -/
theorem read_storeAt (hroom : OutHeader.size ≤ space.length) (m : Memory)
    (h : OutHeader) :
    space.read (m.storeAt space.headerAddrs h.asSlice) =
      h.asSlice ++ space.bodyAddrs.map m := by
  have hlen : h.asSlice.length = space.headerAddrs.length := by
    rw [OutHeader.length_asSlice, headerAddrs, length_take_of_le]
    exact hroom.trans_eq (length_addrs space.slices).symm
  have hdisj : space.bodyAddrs.Disjoint space.headerAddrs :=
    (disjoint_take_drop space.distinct (Nat.le_refl _)).symm
  have hsplit : addrs space.slices = space.headerAddrs ++ space.bodyAddrs :=
    (take_append_drop _ _).symm
  rw [read, hsplit, map_append, Memory.map_storeAt_of_disjoint hdisj,
    Memory.map_storeAt space.nodup_headerAddrs hlen]

end ReplySpace

section Request

variable {I : Type} [DirectoryIterator I] {allowed : DirectoryCall → Prop}
  {ok : (call : DirectoryCall) → DirectoryCall.Ans I call → Prop} {m : Memory}
  {calls : Calls I} {inHeader : Fuse.InHeader} {r : List UInt8} {space : ReplySpace}
  {Q : Outcome IoError Panic (Except Error Nat) → Memory × Calls I → Prop}

/-- The request to the file system. -/
def readdirCall (inHeader : Fuse.InHeader) (args : Fuse.ReadIn) : DirectoryCall :=
  .readdir (contextOf inHeader) inHeader.nodeid args.fh (min args.size.toNat MAX_BUFFER_SIZE)
    args.offset

/-- What must hold after the loop, given what must hold after the reply. -/
def replyPost (space : ReplySpace) (unique : UInt64)
    (Q : Outcome IoError Panic (Except Error Nat) → Memory × Calls I → Prop) :
    Outcome IoError Panic (Except IoError Nat) → Memory × Calls I → Prop
  | .ok (.ok n), g => Fuse.OutHeader.size + n < 2 ^ 32 ∧ Q (.ok (.ok (Fuse.OutHeader.size + n)))
    (g.1.storeAt space.headerAddrs (okHeader n unique).asSlice, g.2)
  | .ok (.error e), g => Q (.ok (.ok Fuse.OutHeader.size))
    (g.1.storeAt space.headerAddrs (errorHeader e unique).asSlice, g.2)
  | .err e, g => Q (.err e) g
  | .panic p, g => Q (.panic p) g

omit [DirectoryIterator I] in
theorem replyPost_mono {unique : UInt64}
    {Q' : Outcome IoError Panic (Except Error Nat) → Memory × Calls I → Prop}
    (h : ∀ o g, Q o g → Q' o g) :
    ∀ o g, replyPost space unique Q o g → replyPost space unique Q' o g := by
  rintro ((e | n) | e | p) g hpost
  · exact h _ _ hpost
  · exact ⟨hpost.1, h _ _ hpost.2⟩
  · exact h _ _ hpost
  · exact h _ _ hpost

omit [DirectoryIterator I] in
/-- **The common part of the two requests.** -/
theorem wp_listDirectory
    {loop : (size rounds : Nat) → I → Writer → Nat → M (DirectoryCall.Ans I) (Except IoError Nat)}
    (hroom : OutHeader.size ≤ space.length)
    (hallowed : ∀ args, ReadIn.readObj r = .ok args → allowed (readdirCall inHeader args))
    (hdecode : ∀ e, ReadIn.readObj r = .error e →
      Q (.ok (.error (.decodeMessage e))) (m, calls))
    (hsmall : ∀ args, ReadIn.readObj r = .ok args →
      space.length < min args.size.toNat MAX_BUFFER_SIZE →
        Q (.ok (.ok OutHeader.size)) (m.storeAt space.headerAddrs
          (errorHeader (.os ENOMEM) inHeader.unique).asSlice, calls))
    (hfailed : ∀ args e, ReadIn.readObj r = .ok args →
      ok (readdirCall inHeader args) (.error e : Except IoError I) →
        Q (.ok (.ok OutHeader.size))
          (m.storeAt space.headerAddrs (errorHeader e inHeader.unique).asSlice,
            calls ++ [⟨readdirCall inHeader args, (.error e : Except IoError I)⟩]))
    (hloop : ∀ args it cursor, ReadIn.readObj r = .ok args →
      ok (readdirCall inHeader args) (.ok it : Except IoError I) →
      addrs cursor.buffers = space.bodyAddrs →
        (loop (min args.size.toNat MAX_BUFFER_SIZE) (min args.size.toNat MAX_BUFFER_SIZE + 1)
          it cursor 0).wp (serving allowed ok) (replyPost space inHeader.unique Q)
          (m, calls ++ [⟨readdirCall inHeader args, (.ok it : Except IoError I)⟩])) :
    (listDirectory loop inHeader r space.writer).wp (serving allowed ok) Q (m, calls) := by
  have havail : space.writer.availableBytes = space.length := rfl
  have hheader : ∀ (m : Memory) (h : OutHeader),
      m.storeAt (addrs space.slices) h.asSlice = m.storeAt space.headerAddrs h.asSlice :=
    fun m h => by
      rw [ReplySpace.headerAddrs, ← OutHeader.length_asSlice h, Memory.storeAt_take]
  unfold listDirectory
  split
  · rename_i e hread
    exact hdecode e hread
  · rename_i args hread
    dsimp only
    by_cases hsize : space.length < min args.size.toNat MAX_BUFFER_SIZE
    · rw [havail, if_pos hsize]
      refine wp_replyError (hroom.trans_eq havail.symm) ?_
      have hthis := hsmall args hread hsize
      rw [← hheader] at hthis
      exact (Nat.zero_add OutHeader.size).symm ▸ hthis
    · rw [havail, if_neg hsize]
      obtain ⟨front, back, hsplit, hfront, hback, hconsumed⟩ :=
        splitAt_addrs (hroom.trans_eq havail.symm)
      have hfrontRoom : OutHeader.size ≤ front.availableBytes := by
        rw [← Writer.length_addrs_buffers, hfront, length_take_of_le]
        exact hroom.trans_eq (length_addrs space.slices).symm
      have hfront' : addrs front.buffers = space.headerAddrs := hfront
      have hconsumed' : front.bytesConsumed + OutHeader.size = OutHeader.size := by
        rw [hconsumed]
        exact Nat.zero_add _
      rw [hsplit]
      refine ⟨hallowed args hread, fun answer g' hg' => ?_⟩
      obtain ⟨hanswer, rfl⟩ := hg'
      rcases (answer : Except IoError I) with e | it
      · refine wp_replyError hfrontRoom ?_
        rw [hfront', hconsumed']
        exact hfailed args e hread hanswer
      · refine (wp_bind (p := loop _ _ it back 0)).mpr
          (wp_mono ?_ _ (hloop args it back hread hanswer hback))
        rintro ((e | n) | e | p) ⟨m', calls'⟩ hpost
        · refine wp_replyError hfrontRoom ?_
          rw [hfront', hconsumed']
          exact hpost
        · refine wp_replyReaddir hfrontRoom hpost.1 ?_
          rw [hfront']
          exact hpost.2
        · exact hpost
        · exact hpost

/-- The reply with these entries, as the guest finds it. -/
theorem read_sentBytes (space : ReplySpace) (m : Memory) (sent : List Sent) (bytes : List UInt8)
    (unique : UInt64) (hroom : OutHeader.size ≤ space.length)
    (hwithin : (sentBytes sent).length ≤ space.bodyAddrs.length) :
    ∃ rest, space.read ((m.storeAt space.bodyAddrs (sentBytes sent ++ bytes)).storeAt
        space.headerAddrs (okHeader (sentBytes sent).length unique).asSlice) =
        (okHeader (sentBytes sent).length unique).asSlice ++ rest ∧
      rest.take (sentBytes sent).length = sentBytes sent :=
  ⟨_, ReplySpace.read_storeAt hroom _ _, Memory.take_map_storeAt space.nodup_bodyAddrs hwithin⟩

end Request

theorem okHeader_len {len : Nat} (unique : UInt64) (h : OutHeader.size + len < 2 ^ 32) :
    (okHeader len unique).len.toNat = OutHeader.size + len := by
  rw [okHeader, UInt32.toNat_ofNat', Nat.mod_eq_of_lt h]

theorem replyBody_error {e : IoError} {unique : UInt64} {rest : List UInt8} :
    replyBody ((errorHeader e unique).asSlice ++ rest) = [] := by
  rw [replyBody_append (n := 0) rfl _, take_zero]

/-! ## 5. The encoding -/

/-- The length of the records of entries. -/
def listLen (plus : Bool) (entries : List DirEntry) : Nat :=
  (entries.map (recordLen (layoutSize plus))).sum

theorem length_sentBytes {sent : List Sent} {plus : Bool} (h : ∀ s ∈ sent, s.2.isSome = plus) :
    (sentBytes sent).length = listLen plus (sent.map Prod.fst) := by
  rw [sentBytes, length_flatMap, listLen, map_map]
  refine congrArg sum (map_congr_left fun s hs => ?_)
  exact length_recordBytes (h s hs) s.1

/-- **A reply with a prefix of the entries**, the longest that fits. -/
structure EncodesPrefix (plus : Bool) (size : Nat) (unique : UInt64) (entries : List DirEntry)
    (reply : List UInt8) : Prop where
  len : headerLen reply = Fuse.OutHeader.size + (replyBody reply).length
  error : headerError reply = 0
  unique : headerUnique reply = unique.toNat
  within : (replyBody reply).length ≤ size
  aligned : ∀ x ∈ replyRecords plus reply, 8 ∣ x.1
  decoded : ∃ n ≤ entries.length,
    (replyRecords plus reply).map (fun x => decodeDirent (layoutSize plus) x.2) = entries.take n ∧
    (replyBody reply).length = listLen plus (entries.take n) ∧
    ∀ k ≤ entries.length, listLen plus (entries.take k) ≤ size → k ≤ n

/-- READDIR or READDIRPLUS. -/
def request {I : Type} [DirectoryIterator I] (plus : Bool) :
    Fuse.InHeader → List UInt8 → Writer → M (DirectoryCall.Ans I) (Except Error Nat) :=
  if plus then readdirplus else readdir

/-- A file system that lists the entries of an iterator and can look up all of them. -/
def Lists {I : Type} (it : I) : (call : DirectoryCall) → DirectoryCall.Ans I call → Prop
  | .readdir .., (r : Except IoError I) => r = .ok it
  | .lookup .., (r : Except IoError Entry) => ∃ e, r = .ok e
  | .forget .., _ => True

section Encoding

variable {I : Type} [DirectoryIterator I] {it : I} {entries : List DirEntry} {plus : Bool}
  {size : Nat} {space : ReplySpace} {m : Memory} {unique : UInt64}

omit [DirectoryIterator I] in
theorem listLen_append (l l' : List DirEntry) :
    listLen plus (l ++ l') = listLen plus l + listLen plus l' := by
  simp [listLen]

omit [DirectoryIterator I] in
/-- More entries take more space. -/
theorem listLen_take_le (plus : Bool) {k k' : Nat} (h : k ≤ k') (l : List DirEntry) :
    listLen plus (l.take k) ≤ listLen plus (l.take k') := by
  rw [← take_append_drop k (l.take k'), listLen_append, take_take, Nat.min_eq_left h]
  exact Nat.le_add_right _ _

variable {sent : List Sent} {it' : I}

/-- A complete listing is the longest prefix that fits. -/
theorem longest_of_complete (hyields : Yields it entries) (hlist : Listing size plus it sent it')
    (hcomplete : Complete size plus (sentBytes sent).length it') :
    sent.length ≤ entries.length ∧ entries.take sent.length = sent.map Prod.fst ∧
    ∀ k ≤ entries.length, listLen plus (entries.take k) ≤ size → k ≤ sent.length := by
  obtain ⟨rest, hentries, hrest⟩ := hlist.yielded.rest hyields
  have hlen : sent.length = (sent.map Prod.fst).length := (length_map _).symm
  have hfront : entries.take sent.length = sent.map Prod.fst := by
    rw [hentries, hlen, take_left]
  refine ⟨?_, hfront, fun k hk hfits => ?_⟩
  · rw [hentries, length_append, ← hlen]
    exact Nat.le_add_right _ _
  by_contra hmore
  rcases hrest.next with ⟨hnil, -⟩ | ⟨d, it₁, rest', hcons, hnext⟩
  · rw [hentries, hnil, append_nil, ← hlen] at hk
    exact hmore hk
  · -- One entry more is too much.
    have honemore : entries.take (sent.length + 1) = sent.map Prod.fst ++ [d] := by
      rw [hentries, hcons, hlen, take_length_add_append]
      rfl
    have hle := listLen_take_le plus (Nat.lt_of_not_le hmore) entries
    rw [honemore, listLen_append, ← length_sentBytes hlist.layout] at hle
    cases hcomplete with
    | finished h =>
      rw [hnext] at h
      cases h
    | full h hfull =>
      rw [hnext] at h
      cases h
      have hone : listLen plus [d] = recordLen (layoutSize plus) d := by simp [listLen]
      omega

/-- The reply of a complete listing. -/
theorem encodesPrefix_of_complete (m : Memory) (bytes : List UInt8) (unique : UInt64)
    (hyields : Yields it entries) (hlist : Listing size plus it sent it')
    (hcomplete : Complete size plus (sentBytes sent).length it')
    (hsize : OutHeader.size + size < 2 ^ 32)
    (hroom : OutHeader.size + size ≤ space.length) :
    EncodesPrefix plus size unique entries (space.read
      ((m.storeAt space.bodyAddrs (sentBytes sent ++ bytes)).storeAt space.headerAddrs
        (okHeader (sentBytes sent).length unique).asSlice)) := by
  have hwithin := hlist.within
  have hbodyLen := space.length_bodyAddrs
  obtain ⟨rest, hreply, hrest⟩ := read_sentBytes space m sent bytes unique
    (by omega) (by omega)
  have hlen := okHeader_len unique (show OutHeader.size + (sentBytes sent).length < 2 ^ 32 by omega)
  have hbody := (replyBody_append hlen rest).trans hrest
  have hrecords : replyRecords plus ((okHeader (sentBytes sent).length unique).asSlice ++ rest) =
      Framing.placed 0 (sent.map fun s => recordBytes s.1 s.2) := by
    rw [replyRecords, hbody, records_sentBytes hlist.layout hlist.names]
  obtain ⟨hle, hfront, hlongest⟩ := longest_of_complete hyields hlist hcomplete
  rw [hreply]
  refine ⟨?_, ?_, ?_, ?_, ?_, sent.length, hle, ?_, ?_, hlongest⟩
  · rw [headerLen_append, hlen, hbody]
  · rw [headerError_append]
    rfl
  · rw [headerUnique_append]
    rfl
  · rw [hbody]
    exact hwithin
  · rw [hrecords]
    refine Framing.dvd_of_mem_placed _ (dvd_zero 8) fun record hrecord => ?_
    obtain ⟨s, hs, rfl⟩ := mem_map.mp hrecord
    rw [length_recordBytes (hlist.layout s hs), recordLen]
    refine Nat.dvd_add ?_ (dvd_roundUp8 _)
    cases plus <;> decide
  · have hdecode : ∀ l : List (Nat × List UInt8),
        l.map (fun x => decodeDirent (layoutSize plus) x.2) =
          (l.map Prod.snd).map (decodeDirent (layoutSize plus)) :=
      fun l => by rw [map_map]; rfl
    rw [hrecords, hfront, hdecode, Framing.map_snd_placed, map_map]
    exact map_congr_left fun s hs =>
      decodeDirent_recordBytes (hlist.layout s hs) (hlist.names s hs)
  · rw [hbody, hfront, length_sentBytes hlist.layout]

variable {ok : (call : DirectoryCall) → DirectoryCall.Ans I call → Prop}

/-- Nothing fails if the names are short, the chain is long enough and all names are found. -/
theorem not_failed {cursor : Writer}
    (hlookup : plus = true →
      ∀ ctx parent name e, ¬ ok (.lookup ctx parent name) (.error e : Except IoError Entry))
    (hyields : Yields it entries) (hnames : ∀ d ∈ entries, d.name.length < 2 ^ 32)
    (hroom : size ≤ cursor.availableBytes) (hlist : Listing size plus it sent it') :
    ¬ Failed ok cursor size plus (sentBytes sent).length it' := by
  intro hfailed
  obtain ⟨rest, hentries, hrest⟩ := hlist.yielded.rest hyields
  cases hfailed with
  | longName h hlong =>
    rcases hrest.next with ⟨-, hnone⟩ | ⟨d, it₁, rest', rfl, hnext⟩
    · rw [hnone] at h
      cases h
    · have hshort := hnames d (by simp [hentries])
      rw [hnext] at h
      cases h
      omega
  | noRoom _ hfits hroom' => omega
  | lookup hplus h => exact hlookup hplus _ _ _ _ h

theorem not_panics {p : IteratorPanic} (hyields : Yields it entries)
    (hlist : Listing size plus it sent it') : DirectoryIterator.next it' ≠ .error p := by
  intro hpanic
  obtain ⟨rest, -, hrest⟩ := hlist.yielded.rest hyields
  rcases hrest.next with ⟨-, hnone⟩ | ⟨d, it₁, rest', -, hnext⟩
  · rw [hnone] at hpanic
    cases hpanic
  · rw [hnext] at hpanic
    cases hpanic

/-- What a request has to establish. -/
def EncodedPost (plus : Bool) (size : Nat) (unique : UInt64) (entries : List DirEntry)
    (space : ReplySpace) (o : Outcome IoError Panic (Except Error Nat))
    (g : Memory × Calls I) : Prop :=
  o = .ok (.ok (headerLen (space.read g.1))) ∧
    EncodesPrefix plus size unique entries (space.read g.1)

/-- The reply after a complete listing. -/
theorem replyPost_of_complete {bytes : List UInt8} {calls : Calls I}
    (hyields : Yields it entries) (hlist : Listing size plus it sent it')
    (hcomplete : Complete size plus (sentBytes sent).length it')
    (hsize : OutHeader.size + size < 2 ^ 32)
    (hroom : OutHeader.size + size ≤ space.length) :
    replyPost space unique (EncodedPost plus size unique entries space)
      (.ok (.ok (sentBytes sent).length))
      (m.storeAt space.bodyAddrs (sentBytes sent ++ bytes), calls) := by
  have hwithin := hlist.within
  have hencodes := encodesPrefix_of_complete m bytes unique hyields hlist hcomplete hsize hroom
  refine ⟨by omega, ?_, hencodes⟩
  rw [ReplySpace.read_storeAt (by omega), headerLen_append, okHeader_len unique (by omega)]

/-- **The requests, for a file system that gives an iterator over some entries.** -/
theorem wp_request {inHeader : InHeader} {r : List UInt8} {args : ReadIn}
    {allowed : DirectoryCall → Prop} (Given : List DirEntry → Prop)
    (hread : ReadIn.readObj r = .ok args)
    (hroom : OutHeader.size + min args.size.toNat MAX_BUFFER_SIZE ≤ space.length)
    (hreaddir : ∀ answer : Except IoError I, ok (readdirCall inHeader args) answer →
      ∃ it entries, answer = .ok it ∧ Yields it entries ∧ Given entries)
    (hlookup : plus = true →
      ∀ ctx parent name e, ¬ ok (.lookup ctx parent name) (.error e : Except IoError Entry))
    (hallowed : allowed (readdirCall inHeader args))
    (hothers : plus = true →
      (∀ ctx parent name, allowed (.lookup ctx parent name)) ∧
      ∀ ctx inode count, allowed (.forget ctx inode count))
    (hnames : ∀ entries, Given entries → ∀ d ∈ entries, d.name.length < 2 ^ 32) :
    (request plus inHeader r space.writer).wp (serving allowed ok)
      (fun o g => ∃ entries, Given entries ∧
        EncodedPost plus (min args.size.toNat MAX_BUFFER_SIZE) inHeader.unique entries space o g)
      (m, []) := by
  have hmax : MAX_BUFFER_SIZE = 2 ^ 20 := rfl
  have hheader : OutHeader.size = 16 := rfl
  have hrequest : (request plus inHeader r space.writer : M (DirectoryCall.Ans I) _) =
      listDirectory (if plus then readdirplusLoop inHeader else readdirLoop) inHeader r
        space.writer := by
    cases plus <;> rfl
  rw [hrequest]
  refine wp_listDirectory (by omega) ?_ ?_ ?_ ?_ ?_
  · intro args' hread'
    rw [hread] at hread'
    cases hread'
    exact hallowed
  · intro e herr
    rw [hread] at herr
    cases herr
  · intro args' hread' hsmall
    rw [hread] at hread'
    cases hread'
    omega
  · intro args' e hread' hanswer
    rw [hread] at hread'
    cases hread'
    obtain ⟨it, entries, herr, -⟩ := hreaddir _ hanswer
    cases herr
  · intro args' it cursor hread' hanswer hcursor
    rw [hread] at hread'
    cases hread'
    obtain ⟨_, entries, hit, hyields, hgiven⟩ := hreaddir _ hanswer
    cases hit
    have hshort := hnames entries hgiven
    refine wp_mono (replyPost_mono fun o g h => ⟨entries, hgiven, h⟩) _ ?_
    have havail : min args.size.toNat MAX_BUFFER_SIZE ≤ cursor.availableBytes := by
      rw [← Writer.length_addrs_buffers, hcursor, space.length_bodyAddrs]
      omega
    cases plus with
    | false =>
      refine wp_readdirLoop (w := cursor) ?_ ?_ ?_ _ it cursor m [] (.start it) (.nil cursor m)
        (by simp [sentBytes])
      · intro sent it' bytes hlist _ hcomplete
        rw [hcursor]
        exact replyPost_of_complete hyields hlist hcomplete (by omega) hroom
      · intro e sent it' bytes hlist hfailed
        exact absurd hfailed (not_failed hlookup hyields hshort havail hlist)
      · intro p sent it' g hlist hpanic
        exact absurd hpanic (not_panics hyields hlist)
    | true =>
      obtain ⟨hallowedLookup, hallowedForget⟩ := hothers rfl
      refine wp_readdirplusLoop inHeader (hallowedLookup _ _) (hallowedForget _ · 1) (w := cursor)
        ?_ ?_ ?_ _ it cursor m [] _ (.start it) (.nil cursor m) ?_ (by simp [sentBytes])
      · intro sent it' bytes calls hlist _ _ hend
        rcases hend with hcomplete | hfailed
        · rw [hcursor]
          exact replyPost_of_complete hyields hlist hcomplete (by omega) hroom
        · exact absurd hfailed (not_failed hlookup hyields hshort havail hlist)
      · intro e sent it' bytes calls hlist _ hfailed
        exact absurd hfailed (not_failed hlookup hyields hshort havail hlist)
      · intro p sent it' g hlist hpanic
        exact absurd hpanic (not_panics hyields hlist)
      · exact fun inode _ => rfl

/-- The requests, for one iterator. -/
theorem wp_request_lists {inHeader : InHeader} {r : List UInt8} {args : ReadIn}
    (hread : ReadIn.readObj r = .ok args)
    (hroom : OutHeader.size + min args.size.toNat MAX_BUFFER_SIZE ≤ space.length)
    (hyields : Yields it entries) (hnames : ∀ d ∈ entries, d.name.length < 2 ^ 32) :
    (request plus inHeader r space.writer).wp (serving (fun _ => True) (Lists it))
      (EncodedPost plus (min args.size.toNat MAX_BUFFER_SIZE) inHeader.unique entries space)
      (m, []) := by
  have hlookup : plus = true → ∀ ctx parent name e,
      ¬ Lists it (.lookup ctx parent name) (.error e : Except IoError Entry) := by
    rintro - ctx parent name e ⟨entry, h⟩
    cases h
  refine wp_mono ?_ _ (wp_request (· = entries) hread hroom
    (fun _ h => ⟨it, entries, h, hyields, rfl⟩) hlookup trivial
    (fun _ => ⟨fun _ _ _ => trivial, fun _ _ _ => trivial⟩) fun _ h d hd => hnames d (h ▸ hd))
  rintro o g ⟨_, rfl, hencoded⟩
  exact hencoded

/-- **The replies are encoded as the protocol says.**  For every list of entries, every size
and every chain with room for it, READDIR and READDIRPLUS return, and the guest decodes the
longest prefix of the entries that fits. -/
theorem directory_replies_encode_entries (plus : Bool) (inHeader : Fuse.InHeader)
    {r : List UInt8} {args : Fuse.ReadIn} (hread : Fuse.ReadIn.readObj r = .ok args)
    (space : ReplySpace)
    (hroom : Fuse.OutHeader.size + min args.size.toNat MAX_BUFFER_SIZE ≤ space.length)
    {it : I} {entries : List DirEntry} (hyields : Yields it entries)
    (hnames : ∀ d ∈ entries, d.name.length < 2 ^ 32) (m : Memory)
    {o : Outcome IoError Panic (Except Error Nat)}
    {log : List (Sigma (ServerAct.Ans (DirectoryCall.Ans I)))}
    (hends : (request plus inHeader r space.writer).Ends o log)
    (hlists : ∀ x ∈ fsCalls log, Lists it x.1 x.2) :
    o = .ok (.ok (headerLen (space.read (memoryAfter m log)))) ∧
      EncodesPrefix plus (min args.size.toNat MAX_BUFFER_SIZE) inHeader.unique entries
        (space.read (memoryAfter m log)) :=
  of_wp_serving _ (wp_request_lists hread hroom hyields hnames) hends hlists

end Encoding

section Example

/-- A header, and the arguments of a request for `size` bytes. -/
def sampleHeader : Fuse.InHeader := ⟨7, 1, 0, 0, 0⟩

def sampleArgs (size : UInt8) : List UInt8 :=
  List.replicate 16 0 ++ [size] ++ List.replicate 23 0

/-- Two entries, and a chain of two slices whose boundary is within the header. -/
def sampleEntries : List DirEntry := [⟨5, 1, 8, [97]⟩, ⟨6, 2, 4, [98, 99]⟩]

def sampleSpace : ReplySpace where
  slices := [⟨64, 10⟩, ⟨128, 240⟩]
  distinct := by
    rw [addrs_cons, addrs_cons, addrs_nil, append_nil]
    refine List.Nodup.append nodup_range' nodup_range' fun a ha hb => ?_
    rw [mem_range'_1] at ha hb
    dsimp only at ha hb
    omega
  fits := by decide

/-- A file system with these entries, in which every name is the inode 5. -/
def sampleAnswer : (a : ServerAct DirectoryCall) → Unit →
    ServerAct.Ans (DirectoryCall.Ans (List DirEntry)) a × Unit
  | .copy _ _, _ => ((), ())
  | .fs (.readdir ..), _ => ((.ok sampleEntries : Except IoError (List DirEntry)), ())
  | .fs (.lookup ..), _ => ((.ok ⟨5, 0, default, ⟨0, 0⟩, ⟨0, 0⟩⟩ : Except IoError Entry), ())
  | .fs (.forget ..), _ => ((), ())

/-- What the server does when it is asked for 200 bytes. -/
def sampleLog (plus : Bool) : List (Sigma (ServerAct.Ans (DirectoryCall.Ans (List DirEntry)))) :=
  (request plus sampleHeader (sampleArgs 200) sampleSpace.writer).trace sampleAnswer ()

theorem sampleLog_lists (plus : Bool) : ∀ x ∈ fsCalls (sampleLog plus),
    Lists sampleEntries x.1 x.2 := by
  refine of_mem_fsCalls_trace sampleAnswer (fun call s => ?_) _ ()
  cases call with
  | readdir => exact rfl
  | lookup => exact ⟨_, rfl⟩
  | forget => exact trivial

theorem directory_replies_encode_entries_sample :
    EncodesPrefix true 200 7 sampleEntries
      (sampleSpace.read (memoryAfter (fun _ => 0) (sampleLog true))) ∧
    EncodesPrefix false 200 7 sampleEntries
      (sampleSpace.read (memoryAfter (fun _ => 0) (sampleLog false))) := by
  have hread : Fuse.ReadIn.readObj (sampleArgs 200) = .ok ⟨0, 0, 200⟩ := rfl
  have h : ∀ plus : Bool, EncodesPrefix plus 200 7 sampleEntries
      (sampleSpace.read (memoryAfter (fun _ => 0) (sampleLog plus))) := fun plus =>
    (directory_replies_encode_entries plus sampleHeader hread sampleSpace
      (by decide) (yields_list sampleEntries) (by decide) _
      (Prog.run_ends sampleAnswer _ ()) (sampleLog_lists plus)).2
  exact ⟨h true, h false⟩

end Example

/-! ## 6. The references of the guest -/

section Accounting

variable {I : Type} {space : ReplySpace}

/-- **The references of the guest are those that the reply names**, and none if the reply is an
error or there is none. -/
def Accounted (space : ReplySpace) (res : Except Error Nat) (m : Memory)
    (calls : Calls I) : Prop :=
  ∀ inode, inode ≠ 0 →
    (∀ len, res = .ok len → netLookups calls inode =
      (replyRecords true (space.read m)).countP fun x => decodeNodeid x.2 = inode) ∧
    ((∃ e, res = .error e) ∨ headerError (space.read m) ≠ 0 → netLookups calls inode = 0)

variable {calls : Calls I}

theorem accounted_error {res : Except Error Nat} {m : Memory} {e : IoError} {unique : UInt64}
    (hroom : OutHeader.size ≤ space.length) (hcalls : Balanced calls []) :
    Accounted space res (m.storeAt space.headerAddrs (errorHeader e unique).asSlice) calls := by
  refine fun inode hne => ⟨fun len _ => ?_, fun _ => hcalls inode hne⟩
  rw [ReplySpace.read_storeAt hroom, replyRecords, replyBody_error]
  exact hcalls inode hne

/-- The records of a reply name the inodes of its entries. -/
theorem countP_decodeNodeid {sent : List Sent} (hlayout : ∀ s ∈ sent, s.2.isSome = true)
    (inode : UInt64) (start : Nat) :
    (Framing.placed start (sent.map fun s => recordBytes s.1 s.2)).countP
      (fun x => decodeNodeid x.2 = inode) = sent.countP fun s => Sent.inode s = inode := by
  induction sent generalizing start with
  | nil => rfl
  | cons s rest ih =>
    obtain ⟨hs, hrest⟩ := forall_mem_cons.mp hlayout
    obtain ⟨e, he⟩ := Option.isSome_iff_exists.mp hs
    have hinode : decodeNodeid (recordBytes s.1 s.2) = Sent.inode s := by
      rw [he, decodeNodeid_recordBytes, Sent.inode, he]
      rfl
    rw [map_cons, Framing.placed, countP_cons, countP_cons, ih hrest, hinode]

theorem accounted_sent {m : Memory} {unique : UInt64} {sent : List Sent} {bytes : List UInt8}
    {len : Nat} (hroom : OutHeader.size ≤ space.length)
    (hwithin : (sentBytes sent).length ≤ space.bodyAddrs.length)
    (hlen : OutHeader.size + (sentBytes sent).length < 2 ^ 32)
    (hlayout : ∀ s ∈ sent, s.2.isSome = true) (hnames : ∀ s ∈ sent, s.1.name.length < 2 ^ 32)
    (hcalls : Balanced calls sent) :
    Accounted space (.ok len) ((m.storeAt space.bodyAddrs (sentBytes sent ++ bytes)).storeAt
      space.headerAddrs (okHeader (sentBytes sent).length unique).asSlice) calls := by
  obtain ⟨rest, hreply, hrest⟩ := read_sentBytes space m sent bytes unique hroom hwithin
  have hbody := (replyBody_append (okHeader_len unique hlen) rest).trans hrest
  rw [Accounted, hreply]
  refine fun inode hne => ⟨fun _ _ => ?_, ?_⟩
  · rw [replyRecords, hbody, records_sentBytes hlayout hnames, countP_decodeNodeid hlayout]
    exact hcalls inode hne
  · rintro (⟨e, he⟩ | herror)
    · cases he
    · exact absurd (headerError_append (okHeader (sentBytes sent).length unique) rest) herror

variable [DirectoryIterator I]

/-- **READDIRPLUS keeps the lookup counts right.**  For every iterator, every arguments, every
answers of the file system and every chain with room for the header: when it has returned, the
successful lookups of an inode minus its forgets are the entries of the reply that name it. -/
theorem readdirplus_lookups_match_reply (inHeader : Fuse.InHeader) (r : List UInt8)
    (space : ReplySpace) (hroom : Fuse.OutHeader.size ≤ space.length) (m : Memory)
    {res : Except Error Nat} {log : List (Sigma (ServerAct.Ans (DirectoryCall.Ans I)))}
    (hends : (readdirplus inHeader r space.writer).Ends (.ok res) log) :
    Accounted space res (memoryAfter m log) (fsCalls log) := by
  have hmax : MAX_BUFFER_SIZE = 2 ^ 20 := rfl
  have hheader : Fuse.OutHeader.size = 16 := rfl
  have hwp : (readdirplus inHeader r space.writer : M (DirectoryCall.Ans I) _).wp
      (serving (fun _ => True) fun _ _ => True) (fun o g => ∀ res, o = .ok res →
      Accounted space res g.1 g.2)
      (m, []) := by
    refine wp_listDirectory hroom (fun _ _ => trivial) ?_ ?_ ?_ ?_
    · rintro e - res ⟨⟩ inode -
      exact ⟨fun len hlen => (nomatch hlen), fun _ => rfl⟩
    · rintro args - - res -
      exact accounted_error hroom fun inode _ => rfl
    · rintro args e - - res -
      exact accounted_error hroom fun inode _ => rfl
    · intro args it cursor _ _ hcursor
      have havail : cursor.availableBytes = space.bodyAddrs.length := by
        rw [← Writer.length_addrs_buffers, hcursor]
      refine wp_readdirplusLoop inHeader (fun _ => trivial) (fun _ => trivial) (w := cursor)
        ?_ ?_ ?_ _ it cursor m [] _ (.start it) (.nil cursor m) (fun inode _ => rfl)
        (by simp [sentBytes])
      · intro sent it' bytes calls hlist hwithin hbal _
        have hsize := hlist.within
        rw [hcursor]
        refine ⟨by omega, ?_⟩
        rintro res ⟨⟩
        exact accounted_sent hroom (by omega) (by omega) hlist.layout hlist.names hbal
      · rintro e sent it' bytes calls - hbal - res -
        exact accounted_error hroom hbal
      · rintro p sent it' g - - res ⟨⟩
  exact of_wp_serving _ hwp hends (fun _ _ => trivial) res rfl

end Accounting

/-- The second entry does not fit and is forgotten: one reference to the inode 5 is left, and
one entry of the reply names it. -/
theorem readdirplus_lookups_match_reply_sample :
    (∃ res, Accounted sampleSpace res (memoryAfter (fun _ => 0) (sampleLog true))
      (fsCalls (sampleLog true))) ∧ netLookups (fsCalls (sampleLog true)) 5 = 1 := by
  have hends := Prog.run_ends sampleAnswer
    (request true sampleHeader (sampleArgs 200) sampleSpace.writer) ()
  have hread : Fuse.ReadIn.readObj (sampleArgs 200) = .ok ⟨0, 0, 200⟩ := rfl
  have hreturns := (of_wp_serving (m := fun _ => 0) _ (wp_request_lists hread (by decide +kernel)
    (yields_list sampleEntries) (by decide)) hends (sampleLog_lists true)).1
  rw [hreturns] at hends
  exact ⟨⟨_, readdirplus_lookups_match_reply sampleHeader (sampleArgs 200) sampleSpace (by decide) _
    hends⟩, by decide +kernel⟩

end Server

end Virtiofsd
