/-
  # Extensions of the creating requests (`server.rs`, `fuse.rs`)

  Behind the name of a CREATE, MKDIR, MKNOD or SYMLINK a guest may send extensions: the
  security context of the new file and the supplementary groups of the caller.  Each is a
  BLOCK, a header with its size and its type and then the payload.  `get_extensions` takes
  the blocks one by one.

  `IsBlock` says what a well-formed block is, without the parser.  The parser takes exactly
  sequences of such blocks apart (`extensionsLoop_eq_ok_iff`); which sequences it accepts is
  then a question about lists of blocks.  It is meant to accept each kind of extension once.
  For security contexts a flag records that one was received.  For groups the LIST of groups
  does, so a block without groups is forgotten, and another one may follow.
-/
import Virtiofsd.Server.Directory

namespace Virtiofsd

open Lib Outcome ByteValued List

/-! ## 1. Messages (`fuse.rs`) -/

namespace Fuse

/-- `ExtHeader`: `size` counts this header and the payload. -/
structure ExtHeader where
  size : UInt32
  extType : UInt32

/-- `Secctx`. -/
structure Secctx where
  size : UInt32
  padding : UInt32

/-- `SuppGroups`. -/
structure SuppGroups where
  nrGroups : UInt32

instance : ByteValued ExtHeader :=
  .ofEquiv ⟨fun h => (h.size, h.extType), fun p => ⟨p.1, p.2⟩, fun _ => rfl, fun _ => rfl⟩

instance : ByteValued Secctx :=
  .ofEquiv ⟨fun s => (s.size, s.padding), fun p => ⟨p.1, p.2⟩, fun _ => rfl, fun _ => rfl⟩

instance : ByteValued SuppGroups :=
  .ofEquiv ⟨fun s => s.nrGroups, fun n => ⟨n⟩, fun _ => rfl, fun _ => rfl⟩

/-- `ExtType`. -/
inductive ExtType where
  | secCtx (nr : UInt32)
  | supGroups

/-- `MAX_NR_SECCTX` and `EXT_SUP_GROUPS`. -/
def MAX_NR_SECCTX : UInt32 := 31
def EXT_SUP_GROUPS : UInt32 := 32

/-- `impl TryFrom<u32> for ExtType`. -/
def ExtType.tryFrom (value : UInt32) : Option ExtType :=
  if value ≤ MAX_NR_SECCTX then some (.secCtx value)
  else if value = EXT_SUP_GROUPS then some .supGroups
  else none

end Fuse

/-! ## 2. The parser -/

namespace Server

open Fuse

/-- What a parser of the server returns. -/
abbrev Parse := Outcome Error Panic

/-- `slice::split_at`. -/
def splitSlice (data : List UInt8) (mid : Nat) : Parse (List UInt8 × List UInt8) :=
  if mid ≤ data.length then .ok (data.take mid, data.drop mid) else .panic .slice

/-- `slice::split_inclusive` at zeros: every piece but the last ends in one. -/
def splitInclusive : List UInt8 → List (List UInt8)
  | [] => []
  | c :: rest =>
    if c = 0 then [c] :: splitInclusive rest
    else
      match splitInclusive rest with
      | [] => [[c]]
      | piece :: pieces => (c :: piece) :: pieces

/-- `Option::ok_or`. -/
def okOr {α : Type} (a : Option α) (e : Error) : Parse α :=
  match a with
  | some a => .ok a
  | none => .err e

/-- `usize::checked_sub`. -/
def checkedSub (a b : Nat) : Option Nat := if b ≤ a then some (a - b) else none

/-- `CString::from_vec_with_nul` and `CStr::from_bytes_with_nul`: one zero, at the end. -/
def fromBytesWithNul (bytes : List UInt8) : Option Name :=
  if bytes.getLast? = some 0 ∧ 0 ∉ bytes.dropLast then some bytes.dropLast else none

/-- `take_object`. -/
def takeObject (T : Type) [ByteValued T] (data : List UInt8) : Parse (T × List UInt8) :=
  if data.length < ByteValued.size T then .err (.decodeMessage .einval)
  else do
    let (objectBytes, remainingBytes) ← splitSlice data (ByteValued.size T)
    return (ByteValued.fromSlice objectBytes, remainingBytes)

/-- **`parse_security_context`.** -/
def parseSecurityContext (nrSecctx : UInt32) (data : List UInt8) : Parse (Option SecContext) :=
  if nrSecctx > 1 then .err (.decodeMessage .einval)
  else if nrSecctx = 0 then return none
  else do
    let (secctx, data) ← takeObject Secctx data
    if secctx.size = 0 then .err (.decodeMessage .einval)
    else
      let secctxName ← okOr (splitInclusive data).head? .missingParameter
      let (_, data) ← splitSlice data secctxName.length
      if data.length < secctx.size.toNat then .err (.decodeMessage .einval)
      else
        let (remaining, _) ← splitSlice data secctx.size.toNat
        let name ← okOr (fromBytesWithNul secctxName) .invalidCString2
        return some ⟨name, remaining⟩

/-- `LINUX_NRGROUPS_MAX`. -/
def LINUX_NRGROUPS_MAX : UInt32 := 65536

/-- The loop of `parse_sup_groups`, with the number of groups that are still to be read. -/
def takeGroups : Nat → List UInt8 → Parse (List UInt32)
  | 0, _ => return []
  | n + 1, groupIdBytes => do
    let (gid, groupIdBytes) ← takeObject UInt32 groupIdBytes
    let groups ← takeGroups n groupIdBytes
    return gid :: groups

/-- **`parse_sup_groups`.** -/
def parseSupGroups (data : List UInt8) : Parse (List UInt32) := do
  let (groupHeader, groupIdBytes) ← takeObject SuppGroups data
  if groupHeader.nrGroups > LINUX_NRGROUPS_MAX ∨
      data.length ≠ roundUp8 (ByteValued.size SuppGroups +
        ByteValued.size UInt32 * groupHeader.nrGroups.toNat) then
    .err (.decodeMessage .einval)
  else takeGroups groupHeader.nrGroups.toNat groupIdBytes

/-- The options that allow extensions. -/
def hasExtensions (options : FsOptions) : Bool :=
  options.contains FsOptions.SECURITY_CTX || options.contains FsOptions.CREATE_SUPP_GROUP

/-- The first half of the loop in `get_extensions`: the type of the next extension, its bytes
and those behind it. -/
def takeExtension (buf : List UInt8) : Parse (ExtType × List UInt8 × List UInt8) := do
  let (extensionHeader, remainingBytes) ← takeObject ExtHeader buf
  let extensionSize ← okOr
    (checkedSub extensionHeader.size.toNat (ByteValued.size ExtHeader)) .invalidHeaderLength
  if extensionSize > remainingBytes.length then .err (.decodeMessage .einval)
  else
    let (currentExtensionBytes, nextExtensionBytes) ← splitSlice remainingBytes extensionSize
    let extType ← okOr (ExtType.tryFrom extensionHeader.extType) (.decodeMessage .einval)
    return (extType, currentExtensionBytes, nextExtensionBytes)

/-- The loop of `get_extensions`: what was found so far, and whether a security context was
among it.  Every block takes some bytes, so as many rounds as bytes are enough. -/
def extensionsLoop (options : FsOptions) : Nat → Extensions → Bool → List UInt8 →
    Parse (Extensions × Bool)
  | 0, _, _, _ => .panic .rounds
  | rounds + 1, extensions, secctxReceived, buf =>
    if buf.isEmpty then return (extensions, secctxReceived)
    else do
      let (extType, currentExtensionBytes, nextExtensionBytes) ← takeExtension buf
      match extType with
      | .secCtx nrSecctx =>
        if !options.contains FsOptions.SECURITY_CTX || secctxReceived then
          .err (.decodeMessage .einval)
        else
          let secctx ← parseSecurityContext nrSecctx currentExtensionBytes
          extensionsLoop options rounds { extensions with secctx } true nextExtensionBytes
      | .supGroups =>
        if !options.contains FsOptions.CREATE_SUPP_GROUP || !extensions.supGids.isEmpty then
          .err (.decodeMessage .einval)
        else
          let supGids ← parseSupGroups currentExtensionBytes
          extensionsLoop options rounds { extensions with supGids } secctxReceived
            nextExtensionBytes

/-- **`get_extensions`.** -/
def getExtensions (options : FsOptions) (skip : Nat) (requestBytes : List UInt8) :
    Parse Extensions :=
  if !hasExtensions options then return ⟨none, []⟩
  else if requestBytes.length < skip then .err (.decodeMessage .einval)
  else do
    let (_, buf) ← splitSlice requestBytes skip
    let (extensions, secctxReceived) ←
      extensionsLoop options (buf.length + 1) ⟨none, []⟩ false buf
    if options.contains FsOptions.SECURITY_CTX && !secctxReceived then .err .missingExtension
    else return extensions

/-! ## 3. Well-formed blocks -/

/-- What a block says. -/
inductive ExtBlock where
  | secctx (c : Option SecContext)
  | groups (gids : List UInt32)

/-- **The payload of a block**, with the type in its header.  The number of security contexts
is the type; the guest sends none or one.  Behind a context there may be any padding, behind
the groups there is as much as rounds the payload up to 8 bytes. -/
inductive Encodes : ExtBlock → UInt32 → List UInt8 → Prop
  | noContext (payload : List UInt8) : Encodes (.secctx none) 0 payload
  | context {h : Secctx} {name : Name} {ctx : List UInt8} (rest : List UInt8)
      (hsize : h.size.toNat = ctx.length) (hsome : ctx ≠ []) (hname : 0 ∉ name) :
      Encodes (.secctx (some ⟨name, ctx⟩)) 1
        (ByteValued.asSlice h ++ (name ++ 0 :: (ctx ++ rest)))
  | groups {h : SuppGroups} {gids : List UInt32} {rest : List UInt8}
      (hnr : h.nrGroups.toNat = gids.length) (hmax : h.nrGroups ≤ LINUX_NRGROUPS_MAX)
      (hlen : 4 + (4 * gids.length + rest.length) = roundUp8 (4 + 4 * gids.length)) :
      Encodes (.groups gids) EXT_SUP_GROUPS
        (ByteValued.asSlice h ++ (gids.flatMap ByteValued.asSlice ++ rest))

/-- **A well-formed block**: a header with the size of all and the type, and the payload. -/
inductive IsBlock : ExtBlock → List UInt8 → Prop
  | mk {b : ExtBlock} {h : ExtHeader} {payload : List UInt8}
      (hsize : h.size.toNat = 8 + payload.length) (hpayload : Encodes b h.extType payload) :
      IsBlock b (ByteValued.asSlice h ++ payload)

/-- A sequence of well-formed blocks. -/
inductive AreBlocks : List ExtBlock → List UInt8 → Prop
  | nil : AreBlocks [] []
  | cons {b : ExtBlock} {bytes : List UInt8} {blocks : List ExtBlock} {rest : List UInt8}
      (hb : IsBlock b bytes) (hrest : AreBlocks blocks rest) :
      AreBlocks (b :: blocks) (bytes ++ rest)

/-! ## 4. The parser takes well-formed blocks apart -/

variable {options : FsOptions} {data : List UInt8} {blocks : List ExtBlock} {c : Option SecContext}
  {found found' : Extensions × Bool} {payload : List UInt8} {gids : List UInt32}
  {bytes : List UInt8} {t : UInt32}

theorem splitSlice_eq_ok_iff {data front back : List UInt8} {mid : Nat} :
    splitSlice data mid = .ok (front, back) ↔ front.length = mid ∧ data = front ++ back := by
  unfold splitSlice
  split
  · rename_i hle
    constructor
    · intro h
      cases h
      exact ⟨length_take_of_le hle, (take_append_drop mid data).symm⟩
    · rintro ⟨rfl, rfl⟩
      simp
  · rename_i hgt
    refine iff_of_false (fun h => nomatch h) ?_
    rintro ⟨rfl, rfl⟩
    simp at hgt

theorem takeObject_eq_ok_iff {T : Type} [ByteValued T] {data rest : List UInt8} {t : T} :
    takeObject T data = .ok (t, rest) ↔ data = asSlice t ++ rest := by
  rw [← eq_append_iff]
  unfold takeObject
  split
  · rename_i hlt
    exact iff_of_false (fun h => nomatch h) fun h => by omega
  · rename_i hge
    simp only [splitSlice, if_pos (Nat.le_of_not_lt hge), ok_bind, pure_eq,
      ok.injEq, Prod.mk.injEq]
    exact ⟨fun h => ⟨by omega, h⟩, fun h => h.2⟩

theorem takeGroups_eq_ok_iff {n : Nat} : ∀ {data : List UInt8} {gids : List UInt32},
    takeGroups n data = .ok gids ↔
      gids.length = n ∧ ∃ rest, data = gids.flatMap asSlice ++ rest := by
  induction n with
  | zero =>
    intro data gids
    constructor
    · intro h
      cases h
      exact ⟨rfl, data, rfl⟩
    · rintro ⟨hlen, -⟩
      rw [length_eq_zero_iff.mp hlen]
      rfl
  | succ n ih =>
    intro data gids
    unfold takeGroups
    constructor
    · intro h
      obtain ⟨⟨gid, bytes⟩, htake, h⟩ := bind_eq_ok.mp h
      obtain ⟨gids', hrest, h⟩ := bind_eq_ok.mp h
      cases h
      obtain ⟨rfl, rest, rfl⟩ := ih.mp hrest
      rw [takeObject_eq_ok_iff] at htake
      exact ⟨rfl, rest, by rw [htake, flatMap_cons, append_assoc]⟩
    · rintro ⟨hlen, rest, rfl⟩
      cases gids with
      | nil => simp at hlen
      | cons gid gids =>
        refine bind_eq_ok.mpr ⟨(gid, gids.flatMap asSlice ++ rest), ?_, ?_⟩
        · rw [takeObject_eq_ok_iff, flatMap_cons, append_assoc]
        · exact bind_eq_ok.mpr ⟨gids, ih.mpr ⟨by simpa using hlen, rest, rfl⟩, rfl⟩

theorem length_flatMap_asSlice {T : Type} [ByteValued T] (l : List T) :
    (l.flatMap asSlice).length = size T * l.length := by
  induction l with
  | nil => rfl
  | cons t l ih =>
    rw [flatMap_cons, length_append, length_asSlice, ih, length_cons]
    ring

theorem splitInclusive_append {name : List UInt8} (h : 0 ∉ name) (rest : List UInt8) :
    splitInclusive (name ++ 0 :: rest) = (name ++ [0]) :: splitInclusive rest := by
  induction name with
  | nil => rfl
  | cons c name ih =>
    have hc : c ≠ 0 := fun hc => h (hc ▸ mem_cons_self)
    have hname : 0 ∉ name := fun hm => h (mem_cons_of_mem _ hm)
    rw [cons_append, splitInclusive, if_neg hc, ih hname]
    rfl

theorem splitInclusive_of_notMem (h : 0 ∉ data) (hne : data ≠ []) :
    splitInclusive data = [data] := by
  induction data with
  | nil => exact absurd rfl hne
  | cons c data ih =>
    have hc : c ≠ 0 := fun hc => h (hc ▸ mem_cons_self)
    have hdata : 0 ∉ data := fun hm => h (mem_cons_of_mem _ hm)
    rw [splitInclusive, if_neg hc]
    cases data with
    | nil => rfl
    | cons d data => rw [ih hdata (cons_ne_nil d data)]

theorem fromBytesWithNul_append {name : List UInt8} (h : 0 ∉ name) :
    fromBytesWithNul (name ++ [0]) = some name := by
  simp [fromBytesWithNul, h]

/-- The first piece is what the bytes begin with; if more follows, it ends in a zero. -/
theorem of_head?_splitInclusive {data piece : List UInt8}
    (h : (splitInclusive data).head? = some piece) :
    ∃ rest, data = piece ++ rest ∧ (rest ≠ [] → ∃ name, 0 ∉ name ∧ piece = name ++ [0]) := by
  by_cases hzero : (0 : UInt8) ∈ data
  · obtain ⟨name, rest, hsplit, hname⟩ := eq_append_cons_of_mem hzero
    rw [hsplit, splitInclusive_append hname] at h
    cases h
    exact ⟨rest, by simp [hsplit], fun _ => ⟨name, hname, rfl⟩⟩
  · have hne : data ≠ [] := by
      rintro rfl
      cases h
    rw [splitInclusive_of_notMem hzero hne] at h
    cases h
    exact ⟨[], (append_nil _).symm, fun hrest => absurd rfl hrest⟩

theorem okOr_eq_ok_iff {α : Type} {a : Option α} {b : α} {e : Error} :
    okOr a e = .ok b ↔ a = some b := by
  cases a <;> simp [okOr]

/-- **What `parse_security_context` accepts.** -/
theorem parseSecurityContext_eq_ok_iff {nr : UInt32} :
    parseSecurityContext nr data = .ok c ↔ Encodes (.secctx c) nr data := by
  constructor
  · intro h
    unfold parseSecurityContext at h
    by_cases hmany : nr > 1
    · rw [if_pos hmany] at h
      cases h
    by_cases hnone : nr = 0
    · rw [if_neg hmany, if_pos hnone] at h
      cases h
      rw [hnone]
      exact .noContext data
    have hone : nr = 1 := by
      apply UInt32.toNat.inj
      have hle : ¬ 1 < nr.toNat := hmany
      have hpos : nr.toNat ≠ 0 := fun h0 => hnone (UInt32.toNat.inj h0)
      change nr.toNat = 1
      omega
    rw [if_neg hmany, if_neg hnone] at h
    obtain ⟨⟨secctx, bytes⟩, htake, h⟩ := bind_eq_ok.mp h
    rw [takeObject_eq_ok_iff] at htake
    dsimp only at h
    by_cases hsize : secctx.size = 0
    · rw [if_pos hsize] at h
      cases h
    rw [if_neg hsize] at h
    obtain ⟨piece, hpiece, h⟩ := bind_eq_ok.mp h
    obtain ⟨⟨front, behind⟩, hcut, h⟩ := bind_eq_ok.mp h
    obtain ⟨hfront, hbytes⟩ := splitSlice_eq_ok_iff.mp hcut
    dsimp only at h
    by_cases hshort : behind.length < secctx.size.toNat
    · rw [if_pos hshort] at h
      cases h
    rw [if_neg hshort] at h
    obtain ⟨⟨remaining, padding⟩, hcut', h⟩ := bind_eq_ok.mp h
    obtain ⟨hremaining, hbehind⟩ := splitSlice_eq_ok_iff.mp hcut'
    have hpos : secctx.size.toNat ≠ 0 := fun h0 => hsize (UInt32.toNat.inj h0)
    obtain ⟨rest, hrest, hended⟩ := of_head?_splitInclusive (okOr_eq_ok_iff.mp hpiece)
    obtain ⟨rfl, rfl⟩ := append_inj (hbytes.symm.trans hrest) hfront
    have hne : behind ≠ [] := by
      rintro rfl
      simp at hshort
      omega
    obtain ⟨name, hname, rfl⟩ := hended hne
    rw [fromBytesWithNul_append hname] at h
    cases h
    have hdata : data = asSlice secctx ++ (name ++ 0 :: (remaining ++ padding)) := by
      rw [htake, hbytes, hbehind]
      simp
    rw [hone, hdata]
    refine .context padding hremaining.symm ?_ hname
    rintro rfl
    exact hpos hremaining.symm
  · intro h
    cases h with
    | noContext => rfl
    | @context hd name ctx rest hsize hsome hname =>
      have hpos : hd.size ≠ 0 := by
        intro h0
        rw [h0] at hsize
        exact hsome (length_eq_zero_iff.mp hsize.symm)
      unfold parseSecurityContext
      rw [if_neg (by decide), if_neg (by decide)]
      refine bind_eq_ok.mpr ⟨(hd, name ++ 0 :: (ctx ++ rest)), ?_, ?_⟩
      · exact takeObject_eq_ok_iff.mpr rfl
      dsimp only
      rw [if_neg hpos, splitInclusive_append hname]
      refine bind_eq_ok.mpr ⟨name ++ [0], rfl, ?_⟩
      refine bind_eq_ok.mpr ⟨(name ++ [0], ctx ++ rest), ?_, ?_⟩
      · exact splitSlice_eq_ok_iff.mpr ⟨rfl, by simp⟩
      dsimp only
      rw [if_neg (by rw [hsize, length_append]; omega)]
      refine bind_eq_ok.mpr ⟨(ctx, rest), splitSlice_eq_ok_iff.mpr ⟨hsize.symm, rfl⟩, ?_⟩
      rw [fromBytesWithNul_append hname]
      rfl

/-- **What `parse_sup_groups` accepts.** -/
theorem parseSupGroups_eq_ok_iff :
    parseSupGroups data = .ok gids ↔ Encodes (.groups gids) EXT_SUP_GROUPS data := by
  constructor
  · intro h
    obtain ⟨⟨groupHeader, bytes⟩, htake, h⟩ := bind_eq_ok.mp h
    rw [takeObject_eq_ok_iff] at htake
    dsimp only at h
    split at h
    · cases h
    rename_i hfits
    obtain ⟨hmax, hlen⟩ := not_or.mp hfits
    obtain ⟨hnr, rest, rfl⟩ := takeGroups_eq_ok_iff.mp h
    have htotal := not_not.mp hlen
    rw [htake, length_append, length_append, length_asSlice,
      length_flatMap_asSlice, ← hnr] at htotal
    rw [htake]
    exact .groups hnr.symm (UInt32.not_lt.mp hmax) htotal
  · intro h
    cases h with
    | @groups hd _ rest hnr hmax hlen =>
      refine bind_eq_ok.mpr ⟨_, takeObject_eq_ok_iff.mpr rfl, ?_⟩
      dsimp only
      rw [if_neg, takeGroups_eq_ok_iff]
      · exact ⟨hnr.symm, rest, rfl⟩
      · rintro (hgt | hne)
        · exact UInt32.not_lt.mpr hmax hgt
        · refine hne ?_
          rw [length_append, length_append, length_asSlice,
            length_flatMap_asSlice, hnr]
          exact hlen

/-! ## 5. Sequences of blocks -/

/-- What one more block makes of what was found so far, if it is allowed there. -/
def takeBlock (options : FsOptions) (found : Extensions × Bool) :
    ExtBlock → Option (Extensions × Bool)
  | .secctx secctx =>
    if !options.contains FsOptions.SECURITY_CTX || found.2 then none
    else some ({ found.1 with secctx }, true)
  | .groups supGids =>
    if !options.contains FsOptions.CREATE_SUPP_GROUP || !found.1.supGids.isEmpty then none
    else some ({ found.1 with supGids }, found.2)

/-- One block after the other. -/
def takeBlocks (options : FsOptions) : Extensions × Bool → List ExtBlock →
    Option (Extensions × Bool)
  | found, [] => some found
  | found, b :: blocks => (takeBlock options found b).bind fun found =>
    takeBlocks options found blocks

theorem checkedSub_eq_some_iff {a b c : Nat} : checkedSub a b = some c ↔ a = b + c := by
  unfold checkedSub
  split
  · rw [Option.some.injEq]
    omega
  · refine iff_of_false (fun h => nomatch h) ?_
    omega

theorem tryFrom_eq_secCtx {t nr : UInt32} (h : ExtType.tryFrom t = some (.secCtx nr)) :
    t = nr := by
  unfold ExtType.tryFrom at h
  split at h
  · cases h
    rfl
  · split at h <;> cases h

theorem tryFrom_eq_supGroups (h : ExtType.tryFrom t = some .supGroups) :
    t = EXT_SUP_GROUPS := by
  unfold ExtType.tryFrom at h
  split at h
  · cases h
  · split at h
    · assumption
    · cases h

theorem tryFrom_of_encodes_secctx (h : Encodes (.secctx c) t payload) :
    ExtType.tryFrom t = some (.secCtx t) := by
  cases h <;> rfl

theorem type_of_encodes_groups (h : Encodes (.groups gids) t payload) : t = EXT_SUP_GROUPS := by
  cases h
  rfl

/-- The header of an extension covers it. -/
theorem takeExtension_eq_ok_iff {buf current next : List UInt8} {t : ExtType} :
    takeExtension buf = .ok (t, current, next) ↔
      ∃ h : ExtHeader, h.size.toNat = 8 + current.length ∧ ExtType.tryFrom h.extType = some t ∧
        buf = (asSlice h ++ current) ++ next := by
  constructor
  · intro h
    obtain ⟨⟨header, remaining⟩, htake, h⟩ := bind_eq_ok.mp h
    obtain ⟨extensionSize, hsub, h⟩ := bind_eq_ok.mp h
    have hsize := checkedSub_eq_some_iff.mp (okOr_eq_ok_iff.mp hsub)
    dsimp only at h
    split at h
    · cases h
    obtain ⟨⟨front, back⟩, hcut, h⟩ := bind_eq_ok.mp h
    obtain ⟨extType, htype, h⟩ := bind_eq_ok.mp h
    cases h
    obtain ⟨rfl, hremaining⟩ := splitSlice_eq_ok_iff.mp hcut
    refine ⟨header, hsize, okOr_eq_ok_iff.mp htype, ?_⟩
    rw [takeObject_eq_ok_iff.mp htake, hremaining, append_assoc]
  · rintro ⟨header, hsize, htype, rfl⟩
    refine bind_eq_ok.mpr ⟨(header, current ++ next), ?_, ?_⟩
    · exact takeObject_eq_ok_iff.mpr (append_assoc _ _ _)
    refine bind_eq_ok.mpr
      ⟨current.length, okOr_eq_ok_iff.mpr (checkedSub_eq_some_iff.mpr hsize), ?_⟩
    dsimp only
    rw [if_neg (by simp)]
    refine bind_eq_ok.mpr ⟨(current, next), splitSlice_eq_ok_iff.mpr ⟨rfl, rfl⟩, ?_⟩
    exact bind_eq_ok.mpr ⟨t, okOr_eq_ok_iff.mpr htype, rfl⟩

theorem IsBlock.length_pos {b : ExtBlock} (h : IsBlock b bytes) :
    0 < bytes.length := by
  cases h
  rw [length_append, length_asSlice]
  exact Nat.add_pos_left (by decide) _

/-- **One round of the loop takes one block.** -/
theorem extensionsLoop_succ_eq_ok_iff {rounds : Nat} {found r : Extensions × Bool}
    {buf : List UInt8} (hbuf : buf ≠ []) :
    extensionsLoop options (rounds + 1) found.1 found.2 buf = .ok r ↔
      ∃ b bytes rest found', IsBlock b bytes ∧ buf = bytes ++ rest ∧
        takeBlock options found b = some found' ∧
        extensionsLoop options rounds found'.1 found'.2 rest = .ok r := by
  rw [extensionsLoop, if_neg (by simpa using hbuf)]
  constructor
  · intro h
    obtain ⟨⟨t, current, next⟩, hext, h⟩ := bind_eq_ok.mp h
    obtain ⟨header, hsize, htype, hbuf⟩ := takeExtension_eq_ok_iff.mp hext
    cases t with
    | secCtx nrSecctx =>
      dsimp only at h
      split at h
      · cases h
      rename_i hallowed
      obtain ⟨secctx, hparse, h⟩ := bind_eq_ok.mp h
      rw [parseSecurityContext_eq_ok_iff, ← tryFrom_eq_secCtx htype] at hparse
      exact ⟨.secctx secctx, _, next, _, .mk hsize hparse, hbuf, if_neg hallowed, h⟩
    | supGroups =>
      dsimp only at h
      split at h
      · cases h
      rename_i hallowed
      obtain ⟨gids, hparse, h⟩ := bind_eq_ok.mp h
      rw [parseSupGroups_eq_ok_iff, ← tryFrom_eq_supGroups htype] at hparse
      exact ⟨.groups gids, _, next, _, .mk hsize hparse, hbuf, if_neg hallowed, h⟩
  · rintro ⟨b, bytes, rest, found', hblock, rfl, hfound, h⟩
    obtain ⟨hsize, hpayload⟩ := hblock
    rename_i header payload
    cases b with
    | secctx c =>
      refine bind_eq_ok.mpr ⟨(.secCtx header.extType, payload, rest), ?_, ?_⟩
      · exact takeExtension_eq_ok_iff.mpr
          ⟨header, hsize, tryFrom_of_encodes_secctx hpayload, rfl⟩
      rw [takeBlock] at hfound
      split at hfound
      · cases hfound
      rename_i hallowed
      cases hfound
      dsimp only
      rw [if_neg hallowed]
      exact bind_eq_ok.mpr ⟨c, parseSecurityContext_eq_ok_iff.mpr hpayload, h⟩
    | groups gids =>
      have htype := type_of_encodes_groups hpayload
      refine bind_eq_ok.mpr ⟨(.supGroups, payload, rest), ?_, ?_⟩
      · exact takeExtension_eq_ok_iff.mpr
          ⟨header, hsize, (congrArg ExtType.tryFrom htype).trans rfl, rfl⟩
      rw [takeBlock] at hfound
      split at hfound
      · cases hfound
      rename_i hallowed
      cases hfound
      rw [htype] at hpayload
      dsimp only
      rw [if_neg hallowed]
      exact bind_eq_ok.mpr ⟨gids, parseSupGroups_eq_ok_iff.mpr hpayload, h⟩

/-- **The loop takes the blocks of the bytes.** -/
theorem extensionsLoop_eq_ok_iff {rounds : Nat} :
    ∀ {found r : Extensions × Bool} {buf : List UInt8}, buf.length < rounds →
      (extensionsLoop options rounds found.1 found.2 buf = .ok r ↔
        ∃ blocks, AreBlocks blocks buf ∧ takeBlocks options found blocks = some r) := by
  induction rounds with
  | zero => exact fun h => absurd h (Nat.not_lt_zero _)
  | succ rounds ih =>
    intro found r buf hlt
    by_cases hbuf : buf = []
    · subst hbuf
      constructor
      · intro h
        cases h
        exact ⟨[], .nil, rfl⟩
      · rintro ⟨blocks, hblocks, h⟩
        cases blocks with
        | nil => exact congrArg ok (Option.some.inj h)
        | cons b blocks =>
          generalize hnil : ([] : List UInt8) = bytes at hblocks
          cases hblocks with
          | cons hb hrest =>
            have hpos := hb.length_pos
            rw [(append_eq_nil_iff.mp hnil.symm).1] at hpos
            exact absurd hpos (Nat.lt_irrefl 0)
    · rw [extensionsLoop_succ_eq_ok_iff hbuf]
      constructor
      · rintro ⟨b, bytes, rest, found', hb, rfl, hfound, h⟩
        have hpos := hb.length_pos
        rw [length_append] at hlt
        obtain ⟨blocks, hrest, hblocks⟩ := (ih (by omega)).mp h
        exact ⟨b :: blocks, .cons hb hrest, by rw [takeBlocks, hfound]; exact hblocks⟩
      · rintro ⟨blocks, hblocks, h⟩
        cases hblocks with
        | nil => exact absurd rfl hbuf
        | @cons b bytes blocks rest hb hrest =>
          obtain ⟨found', hfound, h⟩ := Option.bind_eq_some_iff.mp h
          have hpos := hb.length_pos
          rw [length_append] at hlt
          exact ⟨b, bytes, rest, found', hb, rfl, hfound, (ih (by omega)).mpr ⟨blocks, hrest, h⟩⟩

/-- The blocks of a byte string are the only ones. -/
theorem Encodes.unique {b b' : ExtBlock} (h : Encodes b t payload) (h' : Encodes b' t payload) :
    b = b' := by
  have hapart {c gids} (hc : Encodes (.secctx c) t payload)
      (hg : Encodes (.groups gids) t payload) : False := by
    have htype := tryFrom_of_encodes_secctx hc
    rw [type_of_encodes_groups hg] at htype
    cases htype
  cases b with
  | secctx c =>
    cases b' with
    | secctx c' =>
      have heq := (parseSecurityContext_eq_ok_iff.mpr h).symm.trans
        (parseSecurityContext_eq_ok_iff.mpr h')
      cases heq
      rfl
    | groups gids' => exact (hapart h h').elim
  | groups gids =>
    cases b' with
    | secctx c' => exact (hapart h' h).elim
    | groups gids' =>
      obtain rfl := type_of_encodes_groups h
      have heq := (parseSupGroups_eq_ok_iff.mpr h).symm.trans (parseSupGroups_eq_ok_iff.mpr h')
      cases heq
      rfl

theorem IsBlock.unique {b b' : ExtBlock} {bytes bytes' rest rest' : List UInt8}
    (h : IsBlock b bytes) (h' : IsBlock b' bytes') (heq : bytes ++ rest = bytes' ++ rest') :
    b = b' ∧ rest = rest' := by
  obtain ⟨hsize, hpayload⟩ := h
  obtain ⟨hsize', hpayload'⟩ := h'
  rename_i header payload header' payload'
  rw [append_assoc, append_assoc] at heq
  obtain ⟨hheader, hbehind⟩ := append_inj heq (by simp)
  have hsame : header = header' := by
    rw [← fromSlice_asSlice header, hheader, fromSlice_asSlice]
  subst hsame
  obtain ⟨rfl, hrest⟩ := append_inj hbehind (by omega)
  exact ⟨hpayload.unique hpayload', hrest⟩

theorem AreBlocks.unique (h : AreBlocks blocks bytes) :
    ∀ {blocks'}, AreBlocks blocks' bytes → blocks = blocks' := by
  induction h with
  | nil =>
    intro blocks' h'
    generalize hnil : ([] : List UInt8) = bytes at h'
    cases h' with
    | nil => rfl
    | cons hb hrest =>
      have hpos := hb.length_pos
      rw [(append_eq_nil_iff.mp hnil.symm).1] at hpos
      exact absurd hpos (Nat.lt_irrefl 0)
  | @cons b bytes blocks rest hb hrest ih =>
    intro blocks' h'
    generalize hall : bytes ++ rest = all at h'
    cases h' with
    | nil =>
      have hpos := hb.length_pos
      rw [(append_eq_nil_iff.mp hall).1] at hpos
      exact absurd hpos (Nat.lt_irrefl 0)
    | cons hb' hrest' =>
      obtain ⟨rfl, rfl⟩ := hb.unique hb' hall
      rw [ih hrest']

/-! ## 6. No panic -/

theorem splitSlice_safe {mid : Nat} (h : mid ≤ data.length) :
    (splitSlice data mid).Safe := by
  rw [splitSlice, if_pos h]
  exact safe_ok _

theorem okOr_safe {α : Type} (a : Option α) (e : Error) : (okOr a e).Safe := by
  cases a with
  | none => exact safe_err e
  | some a => exact safe_ok a

theorem takeObject_safe (T : Type) [ByteValued T] (data : List UInt8) :
    (takeObject T data).Safe := by
  unfold takeObject
  split
  · exact safe_err _
  · rename_i hge
    exact (splitSlice_safe (Nat.le_of_not_lt hge)).bind fun _ _ => safe_ok _

theorem parseSecurityContext_safe (nr : UInt32) (data : List UInt8) :
    (parseSecurityContext nr data).Safe := by
  unfold parseSecurityContext
  split
  · exact safe_err _
  split
  · exact safe_ok _
  refine (takeObject_safe Secctx data).bind fun ⟨secctx, bytes⟩ _ => ?_
  dsimp only
  split
  · exact safe_err _
  refine (okOr_safe _ _).bind fun piece hpiece => ?_
  obtain ⟨rest, hrest, -⟩ := of_head?_splitInclusive (okOr_eq_ok_iff.mp hpiece)
  have hle : piece.length ≤ bytes.length := by
    rw [hrest, length_append]
    exact Nat.le_add_right _ _
  refine (splitSlice_safe hle).bind fun ⟨_, behind⟩ _ => ?_
  dsimp only
  split
  · exact safe_err _
  · rename_i hge
    refine (splitSlice_safe (Nat.le_of_not_lt hge)).bind fun _ _ => ?_
    exact (okOr_safe _ _).bind fun _ _ => safe_ok _

theorem takeGroups_safe (n : Nat) : ∀ data, (takeGroups n data).Safe := by
  induction n with
  | zero => exact fun _ => safe_ok _
  | succ n ih =>
    intro data
    refine (takeObject_safe UInt32 data).bind fun p _ => ?_
    exact (ih p.2).bind fun _ _ => safe_ok _

theorem parseSupGroups_safe (data : List UInt8) : (parseSupGroups data).Safe := by
  refine (takeObject_safe SuppGroups data).bind fun p _ => ?_
  dsimp only
  split
  · exact safe_err _
  · exact takeGroups_safe _ _

theorem takeExtension_safe (buf : List UInt8) : (takeExtension buf).Safe := by
  refine (takeObject_safe ExtHeader buf).bind fun p _ => ?_
  refine (okOr_safe _ _).bind fun extensionSize _ => ?_
  dsimp only
  split
  · exact safe_err _
  · rename_i hge
    refine (splitSlice_safe (Nat.le_of_not_lt hge)).bind fun _ _ => ?_
    exact (okOr_safe _ _).bind fun _ _ => safe_ok _

/-- The loop ends before its rounds do. -/
theorem extensionsLoop_safe (options : FsOptions) (rounds : Nat) :
    ∀ (extensions : Extensions) (secctxReceived : Bool) {buf : List UInt8}, buf.length < rounds →
      (extensionsLoop options rounds extensions secctxReceived buf).Safe := by
  induction rounds with
  | zero => exact fun _ _ _ h => absurd h (Nat.not_lt_zero _)
  | succ rounds ih =>
    intro extensions secctxReceived buf hlt
    unfold extensionsLoop
    split
    · exact safe_ok _
    refine (takeExtension_safe buf).bind fun ⟨t, current, next⟩ hext => ?_
    obtain ⟨header, -, -, rfl⟩ := takeExtension_eq_ok_iff.mp hext
    have hnext : next.length < rounds := by
      have hheader : (asSlice header).length = 8 := length_asSlice header
      rw [length_append, length_append, hheader] at hlt
      omega
    cases t with
    | secCtx nrSecctx =>
      dsimp only
      split
      · exact safe_err _
      · exact (parseSecurityContext_safe _ _).bind fun _ _ => ih _ _ hnext
    | supGroups =>
      dsimp only
      split
      · exact safe_err _
      · exact (parseSupGroups_safe _).bind fun _ _ => ih _ _ hnext

/-- `get_extensions` does not panic. -/
theorem getExtensions_safe (options : FsOptions) (skip : Nat) (requestBytes : List UInt8) :
    (getExtensions options skip requestBytes).Safe := by
  unfold getExtensions
  split
  · exact safe_ok _
  split
  · exact safe_err _
  rename_i hge
  refine (splitSlice_safe (Nat.le_of_not_lt hge)).bind fun p _ => ?_
  refine (extensionsLoop_safe _ _ _ _ (Nat.lt_succ_self _)).bind fun found _ => ?_
  dsimp only
  split
  · exact safe_err _
  · exact safe_ok _

/-! ## 7. Which sequences are accepted -/

/-- The option that allows a block. -/
def ExtBlock.option : ExtBlock → FsOptions
  | .secctx _ => FsOptions.SECURITY_CTX
  | .groups _ => FsOptions.CREATE_SUPP_GROUP

/-- The security contexts of blocks, in order. -/
def contexts : List ExtBlock → List (Option SecContext)
  | [] => []
  | .secctx c :: blocks => c :: contexts blocks
  | .groups _ :: blocks => contexts blocks

/-- The lists of groups of blocks, in order. -/
def groupLists : List ExtBlock → List (List UInt32)
  | [] => []
  | .secctx _ :: blocks => groupLists blocks
  | .groups gids :: blocks => gids :: groupLists blocks

/-- **What is asked of the blocks apart from the number of groups blocks**: negotiated types,
and one security context if and only if the option for it was negotiated. -/
structure Permitted (options : FsOptions) (blocks : List ExtBlock) : Prop where
  negotiated : ∀ b ∈ blocks, options.contains b.option
  atMostOne : (contexts blocks).length ≤ 1
  required : options.contains FsOptions.SECURITY_CTX → (contexts blocks).length = 1

theorem takeBlock_secctx : takeBlock options found (.secctx c) = some found' ↔
      options.contains FsOptions.SECURITY_CTX ∧ found.2 = false ∧
        found' = ({ found.1 with secctx := c }, true) := by
  rw [takeBlock]
  split
  · rename_i hrefused
    refine iff_of_false (fun h => nomatch h) ?_
    rintro ⟨hoption, hfirst, -⟩
    simp [hoption, hfirst] at hrefused
  · rename_i hallowed
    rw [Bool.or_eq_true, not_or, Bool.not_eq_true', Bool.not_eq_false, Bool.not_eq_true] at hallowed
    exact ⟨fun h => ⟨hallowed.1, hallowed.2, (Option.some.inj h).symm⟩, fun h => h.2.2 ▸ rfl⟩

theorem takeBlock_groups : takeBlock options found (.groups gids) = some found' ↔
      options.contains FsOptions.CREATE_SUPP_GROUP ∧ found.1.supGids = [] ∧
        found' = ({ found.1 with supGids := gids }, found.2) := by
  rw [takeBlock]
  split
  · rename_i hrefused
    refine iff_of_false (fun h => nomatch h) ?_
    rintro ⟨hoption, hfirst, -⟩
    simp [hoption, hfirst] at hrefused
  · rename_i hallowed
    rw [Bool.or_eq_true, not_or, Bool.not_eq_true', Bool.not_eq_false, Bool.not_eq_true',
      Bool.not_eq_false, List.isEmpty_iff] at hallowed
    exact ⟨fun h => ⟨hallowed.1, hallowed.2, (Option.some.inj h).symm⟩, fun h => h.2.2 ▸ rfl⟩

/-- What the loop makes of blocks.  A block of groups is refused if groups were found before;
so of the lists of groups all but the last must be empty. -/
theorem takeBlocks_eq_some_iff (blocks : List ExtBlock) :
    ∀ {found r : Extensions × Bool}, takeBlocks options found blocks = some r ↔
      (∀ b ∈ blocks, options.contains b.option) ∧
      (contexts blocks).length ≤ (if found.2 then 0 else 1) ∧
      (∀ gids ∈ (found.1.supGids :: groupLists blocks).dropLast, gids = []) ∧
      r = (⟨(contexts blocks).getLastD found.1.secctx,
        (groupLists blocks).getLastD found.1.supGids⟩, found.2 || !(contexts blocks).isEmpty) := by
  induction blocks with
  | nil =>
    intro found r
    have hsame : r = (⟨found.1.secctx, found.1.supGids⟩, found.2 || !true) ↔
        some found = some r := by
      rw [Bool.not_true, Bool.or_false, Option.some.injEq]
      exact eq_comm
    simp [takeBlocks, contexts, groupLists, ← hsame]
  | cons b blocks ih =>
    intro found r
    rw [takeBlocks, Option.bind_eq_some_iff]
    cases b with
    | secctx c =>
      simp only [takeBlock_secctx, ih, contexts, groupLists]
      constructor
      · rintro ⟨found', ⟨hoption, hfirst, rfl⟩, hnegotiated, hone, hgroups, rfl⟩
        have hnone : contexts blocks = [] := by simpa using hone
        refine ⟨forall_mem_cons.mpr ⟨hoption, hnegotiated⟩, ?_, hgroups, ?_⟩
        · simp [hnone, hfirst]
        · simp [hnone]
      · rintro ⟨hnegotiated, hone, hgroups, rfl⟩
        obtain ⟨hoption, hnegotiated⟩ := forall_mem_cons.mp hnegotiated
        have hfirst : found.2 = false := by
          by_contra htrue
          rw [Bool.not_eq_false] at htrue
          rw [if_pos htrue, length_cons] at hone
          omega
        have hnone : contexts blocks = [] := by simpa [hfirst] using hone
        refine ⟨_, ⟨hoption, hfirst, rfl⟩, hnegotiated, ?_, hgroups, ?_⟩ <;> simp [hnone]
    | groups gids =>
      simp only [takeBlock_groups, ih, contexts, groupLists, dropLast_cons_cons,
        forall_mem_cons, getLastD_cons]
      constructor
      · rintro ⟨found', ⟨hoption, hempty, rfl⟩, hnegotiated, hone, hgroups, rfl⟩
        exact ⟨⟨hoption, hnegotiated⟩, hone, ⟨hempty, hgroups⟩, rfl⟩
      · rintro ⟨⟨hoption, hnegotiated⟩, hone, ⟨hempty, hgroups⟩, rfl⟩
        exact ⟨_, ⟨hoption, hempty, rfl⟩, hnegotiated, hone, hgroups, rfl⟩

/-- **What `get_extensions` accepts**, and what it makes of it. -/
theorem getExtensions_eq_ok_iff (hsome : hasExtensions options) (name bytes : List UInt8)
    {extensions : Extensions} :
    getExtensions options name.length (name ++ bytes) = .ok extensions ↔
      ∃ blocks, AreBlocks blocks bytes ∧ Permitted options blocks ∧
        (∀ gids ∈ (groupLists blocks).dropLast, gids = []) ∧
        extensions = ⟨(contexts blocks).getLastD none, (groupLists blocks).getLastD []⟩ := by
  have hdrop : ∀ blocks, (∀ gids ∈ (([] : List UInt32) :: groupLists blocks).dropLast, gids = []) ↔
      ∀ gids ∈ (groupLists blocks).dropLast, gids = [] := by
    intro blocks
    cases groupLists blocks <;> simp
  unfold getExtensions
  rw [if_neg (by simp [hsome]), if_neg (by simp)]
  constructor
  · intro h
    obtain ⟨⟨front, buf⟩, hcut, h⟩ := bind_eq_ok.mp h
    obtain ⟨hfront, hall⟩ := splitSlice_eq_ok_iff.mp hcut
    obtain ⟨rfl, rfl⟩ := append_inj hall hfront.symm
    obtain ⟨⟨found, received⟩, hloop, h⟩ := bind_eq_ok.mp h
    obtain ⟨blocks, hblocks, htaken⟩ : ∃ blocks, AreBlocks blocks bytes ∧
        takeBlocks options (⟨none, []⟩, false) blocks = some (found, received) :=
      (extensionsLoop_eq_ok_iff (Nat.lt_succ_self _)).mp hloop
    obtain ⟨hnegotiated, hone, hgroups, heq⟩ := (takeBlocks_eq_some_iff blocks).mp htaken
    cases heq
    dsimp only at h
    split at h
    · cases h
    rename_i hreceived
    cases h
    refine ⟨blocks, hblocks, ⟨hnegotiated, hone, fun hoption => ?_⟩, (hdrop blocks).mp hgroups, rfl⟩
    have hne : contexts blocks ≠ [] := by
      intro hnil
      simp [hnil, hoption] at hreceived
    exact Nat.le_antisymm hone (length_pos_iff.mpr hne)
  · rintro ⟨blocks, hblocks, ⟨hnegotiated, hone, hrequired⟩, hgroups, rfl⟩
    refine bind_eq_ok.mpr ⟨(name, bytes), splitSlice_eq_ok_iff.mpr ⟨rfl, rfl⟩, ?_⟩
    have htaken : takeBlocks options (⟨none, []⟩, false) blocks = some _ :=
      (takeBlocks_eq_some_iff blocks).mpr ⟨hnegotiated, hone, (hdrop blocks).mpr hgroups, rfl⟩
    refine bind_eq_ok.mpr
      ⟨_, (extensionsLoop_eq_ok_iff (Nat.lt_succ_self _)).mpr ⟨blocks, hblocks, htaken⟩, ?_⟩
    dsimp only
    rw [if_neg]
    · rfl
    · rw [Bool.and_eq_true]
      rintro ⟨hoption, hnone⟩
      have hlen := hrequired hoption
      cases hc : contexts blocks with
      | nil => simp [hc] at hlen
      | cons c rest => simp [hc] at hnone

/-! ## 8. The law -/

/-- **Each extension once**: what the protocol has, and what `get_extensions` is meant to
accept. -/
structure Once (options : FsOptions) (blocks : List ExtBlock) : Prop extends
    Permitted options blocks where
  groups : (groupLists blocks).length ≤ 1

/-- What blocks say, if they say it once. -/
def said (blocks : List ExtBlock) : Extensions :=
  ⟨(contexts blocks).head?.join, (groupLists blocks).head?.getD []⟩

/-- **The law of the extensions** for the bytes behind a name: no panic; without one of the
options the bytes are not looked at; and with one of them the result is `Ok` exactly for
well-formed blocks that say each extension once, and it is what they say. -/
structure ParsesExtensions (options : FsOptions) (name bytes : List UInt8) : Prop where
  safe : (getExtensions options name.length (name ++ bytes)).Safe
  without : hasExtensions options = false →
    getExtensions options name.length (name ++ bytes) = .ok ⟨none, []⟩
  exact : hasExtensions options = true → ∀ extensions,
    getExtensions options name.length (name ++ bytes) = .ok extensions ↔
      ∃ blocks, AreBlocks blocks bytes ∧ Once options blocks ∧ extensions = said blocks

/-- **More than one block of groups**, of which all but the last have none, in an otherwise
acceptable request. -/
def RepeatsGroups (options : FsOptions) (bytes : List UInt8) : Prop :=
  ∃ blocks, AreBlocks blocks bytes ∧ Permitted options blocks ∧ 2 ≤ (groupLists blocks).length ∧
    ∀ gids ∈ (groupLists blocks).dropLast, gids = []

/-- Blocks of groups are allowed by an option. -/
theorem Permitted.hasExtensions (h : Permitted options blocks) (hgroups : groupLists blocks ≠ []) :
    hasExtensions options = true := by
  have hmem : ∃ gids, ExtBlock.groups gids ∈ blocks := by
    clear h
    induction blocks with
    | nil => exact absurd rfl hgroups
    | cons b blocks ih =>
      cases b with
      | secctx c =>
        obtain ⟨gids, hgids⟩ := ih hgroups
        exact ⟨gids, mem_cons_of_mem _ hgids⟩
      | groups gids => exact ⟨gids, mem_cons_self⟩
  obtain ⟨gids, hgids⟩ := hmem
  have hoption : options.contains FsOptions.CREATE_SUPP_GROUP = true := h.negotiated _ hgids
  rw [Server.hasExtensions, hoption, Bool.or_true]

/-- A list of at most one. -/
theorem getLastD_eq_head? {α : Type} {l : List α} (h : l.length ≤ 1) (a : α) :
    l.getLastD a = l.head?.getD a := by
  match l, h with
  | [], _ => rfl
  | [b], _ => rfl

theorem said_eq (h : Once options blocks) :
    said blocks = ⟨(contexts blocks).getLastD none, (groupLists blocks).getLastD []⟩ := by
  rw [getLastD_eq_head? h.atMostOne, getLastD_eq_head? h.groups, said]
  congr 1
  cases (contexts blocks).head? <;> rfl

/-- A request with such a repetition is taken. -/
theorem RepeatsGroups.not_parses (h : RepeatsGroups options bytes) (name : List UInt8) :
    ¬ ParsesExtensions options name bytes := by
  intro hlaw
  obtain ⟨blocks, hblocks, hpermitted, htwo, hempty⟩ := h
  have hsome : hasExtensions options = true := by
    refine hpermitted.hasExtensions ?_
    intro hnil
    rw [hnil] at htwo
    exact absurd htwo (by decide)
  have haccepted := (getExtensions_eq_ok_iff hsome name bytes).mpr
    ⟨blocks, hblocks, hpermitted, hempty, rfl⟩
  obtain ⟨blocks', hblocks', honce, -⟩ := (hlaw.exact hsome _).mp haccepted
  rw [← hblocks.unique hblocks'] at honce
  have hle := honce.groups
  omega

/-- **Which requests are parsed by the law.** -/
theorem extensions_parsed_iff (options : FsOptions) (name bytes : List UInt8) :
    ParsesExtensions options name bytes ↔ ¬ RepeatsGroups options bytes := by
  constructor
  · exact fun hlaw hrepeats => hrepeats.not_parses name hlaw
  · intro hnot
    refine ⟨getExtensions_safe _ _ _, fun hnone => ?_, fun hsome extensions => ?_⟩
    · rw [getExtensions, if_pos (by simp [hnone])]
      rfl
    rw [getExtensions_eq_ok_iff hsome]
    constructor
    · rintro ⟨blocks, hblocks, hpermitted, hempty, rfl⟩
      have hgroups : (groupLists blocks).length ≤ 1 := by
        by_contra hgt
        exact hnot ⟨blocks, hblocks, hpermitted, by omega, hempty⟩
      have honce : Once options blocks := ⟨hpermitted, hgroups⟩
      exact ⟨blocks, hblocks, honce, (said_eq honce).symm⟩
    · rintro ⟨blocks, hblocks, honce, rfl⟩
      refine ⟨blocks, hblocks, honce.toPermitted, ?_, said_eq honce⟩
      have hnil : (groupLists blocks).dropLast = [] := by
        rw [← List.length_eq_zero_iff, List.length_dropLast]
        have hle := honce.groups
        omega
      simp [hnil]

/-- A block of groups. -/
def groupsBlock (gids : List UInt32) (padding : List UInt8) : List UInt8 :=
  leBytes 4 (12 + 4 * gids.length + padding.length) ++ leBytes 4 32 ++ leBytes 4 gids.length ++
    gids.flatMap (fun gid => leBytes 4 gid.toNat) ++ padding

/-- **An empty block of groups hides from the next one.**  The request has two blocks of
groups, the first without groups, and is accepted. -/
theorem empty_groups_block_repeated :
    ¬ ParsesExtensions FsOptions.CREATE_SUPP_GROUP [102, 0]
      (groupsBlock [] [0, 0, 0, 0] ++ groupsBlock [1000] []) := by
  have hempty : IsBlock (.groups []) (groupsBlock [] [0, 0, 0, 0]) :=
    .mk (h := ⟨16, 32⟩) (by decide) (.groups (h := ⟨0⟩) (by decide) (by decide) (by decide))
  have hsecond : IsBlock (.groups [1000]) (groupsBlock [1000] []) :=
    .mk (h := ⟨16, 32⟩) (by decide) (.groups (h := ⟨1⟩) (by decide) (by decide) (by decide))
  refine RepeatsGroups.not_parses ⟨[.groups [], .groups [1000]], ?_, ?_, by decide, ?_⟩ _
  · exact .cons hempty (.cons hsecond .nil)
  · refine ⟨?_, by decide, by decide⟩
    intro b hb
    rcases List.mem_cons.mp hb with rfl | hb
    · decide
    · rcases List.mem_cons.mp hb with rfl | hb
      · decide
      · exact absurd hb List.not_mem_nil
  · decide

end Server

end Virtiofsd
