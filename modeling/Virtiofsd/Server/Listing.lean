/-
  # The entries of a reply (`server.rs`)

  What the loops of READDIR and READDIRPLUS put into a reply, for every iterator, every answer
  of the file system and every layout of the chain.

  `Listing` says what has been sent so far: entries that the iterator has given, in order, each
  with a name of at most `u32::MAX` bytes, all of them within `size`.  A loop ends because it is
  `Complete` or because it has `Failed`.  Both loops keep a `Listing` that agrees with the
  memory of the guest (`Writer.Wrote`); the loop of READDIRPLUS also keeps the references of the
  guest equal to the entries that name the inode (`Balanced`), in each of its exits.
-/
import Virtiofsd.Server.Directory

namespace Virtiofsd

open Lib Fuse List

namespace Server

/-! ## 1. Records -/

/-- The bytes of `Entry` in front of the record of a READDIRPLUS. -/
def entryBytes : Option Entry → List UInt8
  | some e => e.toEntryOut.asSlice
  | none => []

/-- `Dirent` of an entry. -/
def direntOf (d : DirEntry) : Fuse.Dirent where
  ino := d.ino
  off := d.offset
  namelen := .ofNat d.name.length
  type := d.type

/-- The zeros behind a name. -/
def paddingLen (d : DirEntry) : Nat :=
  roundUp8 (Fuse.Dirent.size + d.name.length) - (Fuse.Dirent.size + d.name.length)

/-- **The record of an entry.** -/
def recordBytes (d : DirEntry) (entry : Option Entry) : List UInt8 :=
  entryBytes entry ++ (direntOf d).asSlice ++ d.name ++ List.replicate (paddingLen d) 0

/-- The length of a record behind an entry of the given size. -/
def recordLen (entrySize : Nat) (d : DirEntry) : Nat :=
  entrySize + roundUp8 (Fuse.Dirent.size + d.name.length)

/-- The space of `Entry` in the records of the two requests. -/
def layoutSize (plus : Bool) : Nat := if plus then Fuse.EntryOut.size else 0

variable {entry : Option Entry}

theorem length_entryBytes {plus : Bool} (h : entry.isSome = plus) :
    (entryBytes entry).length = layoutSize plus := by
  subst h
  cases entry <;> simp [entryBytes, layoutSize]

theorem length_recordBytes {plus : Bool} (h : entry.isSome = plus) (d : DirEntry) :
    (recordBytes d entry).length = recordLen (layoutSize plus) d := by
  have := le_roundUp8 (Dirent.size + d.name.length)
  simp only [recordBytes, recordLen, paddingLen, length_append, length_entryBytes h,
    Dirent.length_asSlice, length_replicate]
  omega

theorem checkedAdd_of_lt {a b : Nat} (h : a + b < usizeSize) : checkedAdd a b = .ok (a + b) :=
  if_pos h

section AddDirent

variable {F : Type} {R : F → Type} {allowed : F → Prop} {ok : (call : F) → R call → Prop}
  {m : Memory}
  {calls : List (Sigma R)}

/-- The second part of a record, behind the first. -/
theorem wp_writeDirent {w w₁ : Writer} {m₁ : Memory} {X : List UInt8} {d : DirEntry}
    (h : Writer.Wrote w m X w₁ m₁)
    {Q : Outcome IoError Panic Writer → Memory × List (Sigma R) → Prop}
    (hok : ∀ w' m', Writer.Wrote w m
      (X ++ (direntOf d).asSlice ++ d.name ++ replicate (paddingLen d) 0) w' m' →
        Q (.ok w') (m', calls))
    (herr : w.availableBytes <
      (X ++ (direntOf d).asSlice ++ d.name ++ replicate (paddingLen d) 0).length → ∀ bytes,
        Q (.err (.custom .writeZero "failed to write whole buffer"))
          (m.storeAt (addrs w.buffers) bytes, calls)) :
    (writeDirent w₁ d (paddingLen d) : M R Writer).wp (serving allowed ok) Q (m₁, calls) := by
  unfold writeDirent
  simp only [length_append] at herr
  refine Prog.wp_bind.mpr (h.wp_writeAll _ (fun w₂ m₂ h₂ => ?_) fun hfull => ?_)
  · refine Prog.wp_bind.mpr (h₂.wp_writeAll _ (fun w₃ m₃ h₃ => ?_) fun hfull => ?_)
    · split
      · have hzeros : DIRENT_PADDING.take (paddingLen d) = replicate (paddingLen d) 0 := by
          have := roundUp8_lt (Dirent.size + d.name.length)
          rw [DIRENT_PADDING, take_replicate, Nat.min_eq_left]
          unfold paddingLen
          omega
        rw [hzeros]
        refine h₃.wp_writeAll _ hok fun hfull => herr ?_ _
        simp only [length_append] at hfull
        exact hfull
      · rename_i hnone
        refine hok w₃ m₃ ?_
        rwa [Nat.eq_zero_of_not_pos hnone, replicate_zero, append_nil]
    · refine herr ?_ _
      simp only [length_append] at hfull
      exact Nat.lt_add_right _ hfull
  · refine herr ?_ _
    simp only [length_append] at hfull
    exact Nat.lt_add_right _ (Nat.lt_add_right _ hfull)

/-- **`add_dirent`**: it refuses the name, has no space left, writes the record, or fails in
the middle of it. -/
theorem wp_addDirent (w : Writer) (max : Nat) (d : DirEntry) {plus : Bool}
    (hplus : entry.isSome = plus)
    {Q : Outcome IoError Panic (Nat × Writer) → Memory × List (Sigma R) → Prop}
    (hlong : 2 ^ 32 ≤ d.name.length → Q (.err (.os EOVERFLOW)) (m, calls))
    (hfull : d.name.length < 2 ^ 32 → max < recordLen (layoutSize plus) d →
      Q (.ok (0, w)) (m, calls))
    (hok : d.name.length < 2 ^ 32 → recordLen (layoutSize plus) d ≤ max →
      ∀ w' m', Writer.Wrote w m (recordBytes d entry) w' m' →
      Q (.ok (recordLen (layoutSize plus) d, w')) (m', calls))
    (herr : d.name.length < 2 ^ 32 → recordLen (layoutSize plus) d ≤ max →
      w.availableBytes < recordLen (layoutSize plus) d →
      ∀ bytes, Q (.err (.custom .writeZero "failed to write whole buffer")) (m.storeAt
      (addrs w.buffers) bytes, calls)) :
    (addDirent w max d entry : M R (Nat × Writer)).wp (serving allowed ok) Q (m, calls) := by
  unfold addDirent
  dsimp only
  by_cases hname : d.name.length > 2 ^ 32 - 1
  · rw [if_pos hname]
    exact hlong (by omega)
  have hshort : d.name.length < 2 ^ 32 := by omega
  have hpad := roundUp8_lt (Dirent.size + d.name.length)
  have hsize : Dirent.size = 24 := rfl
  have hentry : EntryOut.size = 128 := rfl
  have husize : usizeSize = 2 ^ 64 := rfl
  have hround : (Dirent.size + d.name.length + 7) / 8 * 8 =
    roundUp8 (Dirent.size + d.name.length) := rfl
  have htotal : (if entry.isSome = true
      then checkedAdd (roundUp8 (Dirent.size + d.name.length)) EntryOut.size
      else .ok (roundUp8 (Dirent.size + d.name.length))) =
      .ok (recordLen (layoutSize plus) d) := by
    rw [hplus]
    cases plus with
    | false => simp [recordLen, layoutSize]
    | true =>
      simp only [if_true, recordLen, layoutSize]
      rw [checkedAdd_of_lt (by omega), Nat.add_comm]
  rw [if_neg hname, checkedAdd_of_lt (by omega)]
  simp only [Prog.ofExcept, Prog.bind_eq, Prog.bind_ret]
  rw [checkedAdd_of_lt (by omega)]
  simp only [Except.map, Prog.bind_ret, hround, htotal]
  by_cases hmax : max < recordLen (layoutSize plus) d
  · rw [if_pos hmax]
    exact hfull hshort hmax
  rw [if_neg hmax]
  have hle := Nat.le_of_not_lt hmax
  -- The entry comes first, in a READDIRPLUS; what follows is the same in both layouts.
  have htail : ∀ w₁ m₁, Writer.Wrote w m (entryBytes entry) w₁ m₁ →
      ((writeDirent w₁ d (paddingLen d)).bind fun cursor =>
        .ret (recordLen (layoutSize plus) d, cursor) : M R (Nat × Writer)).wp
        (serving allowed ok) Q (m₁, calls) := fun w₁ m₁ h₁ =>
    Prog.wp_bind.mpr (wp_writeDirent h₁ (fun w' m' h => hok hshort hle w' m' h) fun hfull bytes =>
      herr hshort hle (hfull.trans_eq (length_recordBytes hplus d)) bytes)
  cases entry with
  | none => exact htail w m (.nil w m)
  | some e =>
    refine Prog.wp_bind.mpr ((Writer.Wrote.nil w m).wp_writeAll _ htail fun hfull => ?_)
    refine herr hshort hle (hfull.trans_le ?_) _
    rw [nil_append, ← length_recordBytes hplus d, recordBytes]
    simp only [length_append, entryBytes]
    omega

end AddDirent

/-! ## 2. Iterators -/

section Iterators

variable {I : Type} [DirectoryIterator I]

/-- An iterator gives the entries of a list and is then `it'`. -/
inductive Yielded : I → List DirEntry → I → Prop
  | nil (it : I) : Yielded it [] it
  | cons {it it' it'' : I} {d : DirEntry} {ds : List DirEntry}
      (h : DirectoryIterator.next it = .ok (some (d, it'))) (hrest : Yielded it' ds it'') :
      Yielded it (d :: ds) it''

/-- **An iterator over a list of entries.** -/
def Yields (it : I) (ds : List DirEntry) : Prop :=
  ∃ it', Yielded it ds it' ∧ DirectoryIterator.next it' = .ok none

theorem Yielded.snoc {it it' it'' : I} {d : DirEntry} {ds : List DirEntry}
    (h : Yielded it ds it') (hd : DirectoryIterator.next it' = .ok (some (d, it''))) :
    Yielded it (ds ++ [d]) it'' := by
  induction h with
  | nil it => exact .cons hd (.nil _)
  | cons h _ ih => exact .cons h (ih hd)

/-- An iterator gives its entries in one way. -/
theorem Yielded.rest {it it' : I} {ds all : List DirEntry} (h : Yielded it ds it')
    (hall : Yields it all) : ∃ rest, all = ds ++ rest ∧ Yields it' rest := by
  induction h generalizing all with
  | nil it => exact ⟨all, rfl, hall⟩
  | cons h _ ih =>
    obtain ⟨last, hy, hnone⟩ := hall
    cases hy with
    | nil =>
      rw [h] at hnone
      cases hnone
    | cons h' hy =>
      rw [h] at h'
      cases h'
      obtain ⟨rest, rfl, hrest⟩ := ih ⟨last, hy, hnone⟩
      exact ⟨rest, rfl, hrest⟩

theorem Yields.next {it : I} {ds : List DirEntry} (h : Yields it ds) :
    (ds = [] ∧ DirectoryIterator.next it = .ok none) ∨
      ∃ d it' rest, ds = d :: rest ∧ DirectoryIterator.next it = .ok (some (d, it')) := by
  obtain ⟨last, hy, hnone⟩ := h
  cases hy with
  | nil => exact .inl ⟨rfl, hnone⟩
  | cons hd _ => exact .inr ⟨_, _, _, rfl, hd⟩

instance : DirectoryIterator (List DirEntry) where
  next
    | [] => .ok none
    | d :: ds => .ok (some (d, ds))

/-- A list is an iterator over itself. -/
theorem yields_list (ds : List DirEntry) : Yields ds ds := by
  refine ⟨[], ?_, rfl⟩
  induction ds with
  | nil => exact .nil _
  | cons d ds ih => exact .cons rfl ih

end Iterators

/-! ## 3. References -/

section References

variable {I : Type}

/-- The calls of the file system, with their answers. -/
abbrev Calls (I : Type) := List (Sigma (DirectoryCall.Ans I))

/-- What a call of the file system does to the references that the guest has to an inode. -/
def DirectoryCall.effect (inode : UInt64) : Sigma (DirectoryCall.Ans I) → Int
  | ⟨.readdir .., _⟩ => 0
  | ⟨.lookup .., (r : Except IoError Entry)⟩ =>
    match r with
    | .ok e => if e.inode = inode then 1 else 0
    | .error _ => 0
  | ⟨.forget _ i count, _⟩ => if i = inode then -count.toNat else 0

/-- **Successful lookups minus forgets.** -/
def netLookups (calls : Calls I) (inode : UInt64) : Int :=
  (calls.map (DirectoryCall.effect inode)).sum

theorem netLookups_snoc (calls : Calls I) (x : Sigma (DirectoryCall.Ans I)) (inode : UInt64) :
    netLookups (calls ++ [x]) inode = netLookups calls inode + DirectoryCall.effect inode x := by
  simp [netLookups]

/-- An entry of a reply, with what its lookup has returned. -/
abbrev Sent := DirEntry × Option Entry

/-- The inode that an entry of a reply names. -/
def Sent.inode (s : Sent) : UInt64 := (s.2.map Entry.inode).getD 0

/-- **The references of the guest are those of the entries.** -/
def Balanced (calls : Calls I) (sent : List Sent) : Prop :=
  ∀ inode, inode ≠ 0 → netLookups calls inode = sent.countP fun s => Sent.inode s = inode

end References

/-! ## 4. The loops -/

section Loops

variable {I : Type} [DirectoryIterator I] {allowed : DirectoryCall → Prop}
  {ok : (call : DirectoryCall) → DirectoryCall.Ans I call → Prop} {w : Writer} {m : Memory}
  {size : Nat} {plus : Bool} {it₀ : I}

/-- The bytes of entries in a reply. -/
def sentBytes (sent : List Sent) : List UInt8 := sent.flatMap fun s => recordBytes s.1 s.2

@[simp] theorem sentBytes_snoc (sent : List Sent) (s : Sent) :
    sentBytes (sent ++ [s]) = sentBytes sent ++ recordBytes s.1 s.2 := by
  simp [sentBytes]

/-- **What has been put into the reply**, `it` being what is left of the iterator. -/
structure Listing (size : Nat) (plus : Bool) (it₀ : I) (sent : List Sent) (it : I) : Prop where
  yielded : Yielded it₀ (sent.map Prod.fst) it
  layout : ∀ s ∈ sent, s.2.isSome = plus
  names : ∀ s ∈ sent, s.1.name.length < 2 ^ 32
  within : (sentBytes sent).length ≤ size

theorem Listing.start (it₀ : I) : Listing size plus it₀ [] it₀ :=
  ⟨.nil _, by simp, by simp, Nat.zero_le _⟩

variable {sent : List Sent}

theorem Listing.snoc {it it' : I} {d : DirEntry} (h : Listing size plus it₀ sent it)
    (hnext : DirectoryIterator.next it = .ok (some (d, it'))) (hplus : entry.isSome = plus)
    (hname : d.name.length < 2 ^ 32)
    (hfits : (sentBytes sent).length + recordLen (layoutSize plus) d ≤ size) :
    Listing size plus it₀ (sent ++ [(d, entry)]) it' := by
  refine ⟨?_, ?_, ?_, ?_⟩
  · rw [map_append]
    exact h.yielded.snoc hnext
  · exact forall_mem_append.mpr ⟨h.layout, forall_mem_singleton.mpr hplus⟩
  · exact forall_mem_append.mpr ⟨h.names, forall_mem_singleton.mpr hname⟩
  · rwa [sentBytes_snoc, length_append, length_recordBytes hplus]

/-- **The loop is at its end**: no more entries, or the next one does not fit. -/
inductive Complete (size : Nat) (plus : Bool) (n : Nat) (it : I) : Prop
  | finished (h : DirectoryIterator.next it = .ok none)
  | full {d : DirEntry} {it' : I} (h : DirectoryIterator.next it = .ok (some (d, it')))
      (hfull : size < n + recordLen (layoutSize plus) d)

/-- **The next entry cannot be sent**: its name is too long, the chain ends before `size`, or
it cannot be looked up. -/
inductive Failed (ok : (call : DirectoryCall) → DirectoryCall.Ans I call → Prop) (w : Writer)
    (size : Nat) (plus : Bool) (n : Nat) (it : I) : Prop
  | longName {d : DirEntry} {it' : I} (h : DirectoryIterator.next it = .ok (some (d, it')))
      (hlong : 2 ^ 32 ≤ d.name.length)
  | noRoom {d : DirEntry} {it' : I} (h : DirectoryIterator.next it = .ok (some (d, it')))
      (hfits : n + recordLen (layoutSize plus) d ≤ size)
      (hroom : w.availableBytes < n + recordLen (layoutSize plus) d)
  | lookup {ctx : Context} {parent : UInt64} {name : Name} {e : IoError} (hplus : plus = true)
      (h : ok (.lookup ctx parent name) (.error e : Except IoError Entry))

theorem recordLen_pos (n : Nat) (d : DirEntry) : ∃ k, recordLen n d = k + 1 := by
  have := le_roundUp8 (Dirent.size + d.name.length)
  have hsize : Dirent.size = 24 := rfl
  exact ⟨recordLen n d - 1, by unfold recordLen; omega⟩

variable {Q : Outcome IoError Panic (Except IoError Nat) → Memory × Calls I → Prop}

/-- **The loop of READDIR.** -/
theorem wp_readdirLoop {calls : Calls I}
    (hok : ∀ sent it bytes, Listing size false it₀ sent it →
      (sentBytes sent).length ≤ w.availableBytes →
      Complete size false (sentBytes sent).length it →
      Q (.ok (.ok (sentBytes sent).length)) (m.storeAt (addrs w.buffers)
      (sentBytes sent ++ bytes), calls))
    (herr : ∀ e sent it bytes, Listing size false it₀ sent it →
      Failed ok w size false (sentBytes sent).length it →
      Q (.ok (.error e)) (m.storeAt (addrs w.buffers) bytes, calls))
    (hpanic : ∀ p sent it g, Listing size false it₀ sent it →
      DirectoryIterator.next it = .error p → Q (.panic (.iterator p)) g) :
    ∀ (rounds : Nat) (it : I) (w₁ : Writer) (m₁ : Memory) (sent : List Sent),
      Listing size false it₀ sent it → Writer.Wrote w m (sentBytes sent) w₁ m₁ →
      size - (sentBytes sent).length < rounds →
        (readdirLoop size rounds it w₁ (sentBytes sent).length).wp (serving allowed ok) Q
          (m₁, calls)
  | 0, _, _, _, _, _, _, hrounds => absurd hrounds (Nat.not_lt_zero _)
  | rounds + 1, it, w₁, m₁, sent, hlist, hwrote, hrounds => by
    have hend : m₁ = m.storeAt (addrs w.buffers) (sentBytes sent ++ []) := by
      rw [append_nil, hwrote.memory]
    unfold readdirLoop
    split
    · rename_i p hnext
      exact hpanic p sent it _ hlist hnext
    · rename_i hnext
      rw [hend]
      exact hok sent it [] hlist hwrote.room (.finished hnext)
    · rename_i d it' hnext
      refine Prog.wp_bind.mpr (Prog.wp_attempt.mpr
        (wp_addDirent _ _ _ Option.isSome_none ?_ ?_ ?_ ?_))
      · intro hlong
        rw [hwrote.memory]
        exact herr _ sent it _ hlist (.longName hnext hlong)
      · intro _ hfull
        rw [hend]
        exact hok sent it [] hlist hwrote.room (.full hnext (by omega))
      · intro hname hfits w' m' hw'
        have hwithin := hlist.within
        have hlist' : Listing size false it₀ (sent ++ [(d, none)]) it' :=
          hlist.snoc hnext rfl hname (by omega)
        have hwrote' := hwrote.append hw'
        obtain ⟨k, hk⟩ := recordLen_pos (layoutSize false) d
        have hlen : (sentBytes (sent ++ [(d, none)])).length =
            (sentBytes sent).length + (k + 1) := by
          rw [sentBytes_snoc, length_append, length_recordBytes Option.isSome_none, hk]
        have hrest := wp_readdirLoop hok herr hpanic rounds it' w' m' (sent ++ [(d, none)]) hlist'
          (by rwa [sentBytes_snoc]) (by omega)
        rw [hlen] at hrest
        exact hk ▸ hrest
      · intro hname hfits hroom bytes
        have hwithin := hlist.within
        rw [hwrote.availableBytes] at hroom
        rw [hwrote.storeAt]
        exact herr _ sent it _ hlist (.noRoom hnext (by omega) (by omega))

section

variable {calls : Calls I} (inHeader : Fuse.InHeader)

omit [DirectoryIterator I] in
/-- `handle_dirent` takes a reference to the inode that it returns. -/
theorem wp_handleDirent (d : DirEntry)
    (hallowed : ∀ name, allowed (.lookup (contextOf inHeader) inHeader.nodeid name))
    {Q : Outcome IoError Panic (DirEntry × Entry) → Memory × Calls I → Prop}
    (hok : ∀ e calls', (∀ inode, inode ≠ 0 → netLookups calls' inode =
      netLookups calls inode + if e.inode = inode then 1 else 0) → Q (.ok (d, e)) (m, calls'))
    (herr : ∀ e calls', (∀ inode, netLookups calls' inode = netLookups calls inode) →
      ok (.lookup (contextOf inHeader) inHeader.nodeid d.name) (.error e : Except IoError Entry) →
        Q (.err e) (m, calls')) :
    (handleDirent inHeader d).wp (serving allowed ok) Q (m, calls) := by
  unfold handleDirent
  split
  · refine hok _ calls fun inode hne => ?_
    rw [if_neg hne.symm, add_zero]
  · refine ⟨hallowed _, fun r g' hr => ?_⟩
    obtain ⟨hanswer, rfl⟩ := hr
    rcases (r : Except IoError Entry) with e | e
    · refine herr e _ (fun inode => ?_) hanswer
      rw [netLookups_snoc]
      exact add_zero _
    · refine hok e _ fun inode _ => ?_
      rw [netLookups_snoc]
      rfl

omit [DirectoryIterator I] in
theorem wp_forgetEntry (inode : UInt64)
    (hallowed : ∀ inode, allowed (.forget (contextOf inHeader) inode 1))
    {Q : Outcome IoError Panic Unit → Memory × Calls I → Prop}
    (hQ : ∀ calls', (∀ i, netLookups calls' i =
      netLookups calls i - if inode = i then 1 else 0) → Q (.ok ()) (m, calls')) :
    (forgetEntry inHeader (some inode)).wp (serving allowed ok) Q (m, calls) := by
  refine ⟨hallowed _, fun r g' hr => ?_⟩
  obtain ⟨-, rfl⟩ := hr
  refine hQ _ fun i => ?_
  rw [netLookups_snoc, sub_eq_add_neg]
  refine congrArg _ ?_
  change (if inode = i then -((1 : UInt64).toNat : Int) else 0) = _
  split <;> simp

end

theorem sentBytes_length_eq_zero (h : (sentBytes sent).length = 0) :
    sent = [] := by
  cases sent with
  | nil => rfl
  | cons s rest =>
    obtain ⟨k, hk⟩ := recordLen_pos (layoutSize s.2.isSome) s.1
    rw [sentBytes, flatMap_cons, length_append, length_recordBytes rfl, hk] at h
    omega

omit [DirectoryIterator I] in
/-- A reference for one more entry. -/
theorem Balanced.snoc {calls calls' : Calls I} {d : DirEntry}
    {e : Entry} (h : Balanced calls sent)
    (hnet : ∀ inode, inode ≠ 0 →
      netLookups calls' inode = netLookups calls inode + if e.inode = inode then 1 else 0) :
    Balanced calls' (sent ++ [(d, some e)]) := by
  intro inode hne
  rw [hnet inode hne, h inode hne, countP_append, countP_singleton]
  by_cases he : e.inode = inode <;> simp [Sent.inode, he]

omit [DirectoryIterator I] in
/-- A reference that was given back. -/
theorem Balanced.undo {calls calls' calls'' : Calls I} {e : Entry}
    (h : Balanced calls sent)
    (hnet : ∀ inode, inode ≠ 0 →
      netLookups calls' inode = netLookups calls inode + if e.inode = inode then 1 else 0)
    (hnet' : ∀ inode, netLookups calls'' inode = netLookups calls' inode - if e.inode =
      inode then 1 else 0) :
    Balanced calls'' sent := by
  intro inode hne
  rw [hnet' inode, hnet inode hne, add_sub_cancel_right, h inode hne]

/-- **The loop of READDIRPLUS.** -/
theorem wp_readdirplusLoop (inHeader : InHeader)
    (hlookup : ∀ name, allowed (.lookup (contextOf inHeader) inHeader.nodeid name))
    (hforget : ∀ inode, allowed (.forget (contextOf inHeader) inode 1))
    (hok : ∀ sent it bytes calls, Listing size true it₀ sent it →
      (sentBytes sent).length ≤ w.availableBytes → Balanced calls sent →
      Complete size true (sentBytes sent).length it ∨ Failed ok w size true
      (sentBytes sent).length it →
      Q (.ok (.ok (sentBytes sent).length)) (m.storeAt (addrs w.buffers)
      (sentBytes sent ++ bytes), calls))
    (herr : ∀ e sent it bytes calls, Listing size true it₀ sent it → Balanced calls [] →
      Failed ok w size true (sentBytes sent).length it →
      Q (.ok (.error e)) (m.storeAt (addrs w.buffers) bytes, calls))
    (hpanic : ∀ p sent it g, Listing size true it₀ sent it →
      DirectoryIterator.next it = .error p → Q (.panic (.iterator p)) g) :
    ∀ (rounds : Nat) (it : I) (w₁ : Writer) (m₁ : Memory) (sent : List Sent) (calls : Calls I),
      Listing size true it₀ sent it → Writer.Wrote w m (sentBytes sent) w₁ m₁ →
      Balanced calls sent → size - (sentBytes sent).length < rounds →
        (readdirplusLoop inHeader size rounds it w₁ (sentBytes sent).length).wp
          (serving allowed ok) Q (m₁, calls)
  | 0, _, _, _, _, _, _, _, _, hrounds => absurd hrounds (Nat.not_lt_zero _)
  | rounds + 1, it, w₁, m₁, sent, calls, hlist, hwrote, hbal, hrounds => by
    have hend : m₁ = m.storeAt (addrs w.buffers) (sentBytes sent ++ []) := by
      rw [append_nil, hwrote.memory]
    unfold readdirplusLoop
    split
    · rename_i p hnext
      exact hpanic p sent it _ hlist hnext
    · rename_i hnext
      rw [hend]
      exact hok sent it [] calls hlist hwrote.room hbal (.inl (.finished hnext))
    · rename_i d it' hnext
      have hwithin := hlist.within
      -- An error is sent only if no entry is.
      have hfail : ∀ e bytes calls', Balanced calls' sent →
          Failed ok w size true (sentBytes sent).length it →
          (if (sentBytes sent).length = 0 then .ret (.error e)
            else .ret (.ok (sentBytes sent).length) :
              M (DirectoryCall.Ans I) (Except IoError Nat)).wp (serving allowed ok) Q
            (m.storeAt (addrs w.buffers) (sentBytes sent ++ bytes), calls') := by
        intro e bytes calls' hbal' hfailed
        split
        · rename_i hzero
          obtain rfl := sentBytes_length_eq_zero hzero
          exact herr e [] it _ calls' hlist hbal' hfailed
        · exact hok sent it bytes calls' hlist hwrote.room hbal' (.inr hfailed)
      refine Prog.wp_bind.mpr (Prog.wp_bind.mpr (Prog.wp_attempt.mpr
        (wp_handleDirent inHeader d hlookup (fun e calls₁ hnet => ?_)
          fun e calls₁ hnet hanswer => ?_)))
      · refine Prog.wp_bind.mpr (Prog.wp_attempt.mpr
          (wp_addDirent _ _ _ Option.isSome_some ?_ ?_ ?_ ?_))
        · intro hlong
          refine Prog.wp_bind.mpr (wp_forgetEntry inHeader _ hforget fun calls₂ hnet₂ => ?_)
          rw [hend]
          exact hfail _ [] calls₂ (hbal.undo hnet hnet₂) (.longName hnext hlong)
        · intro _ hfull
          refine Prog.wp_bind.mpr (wp_forgetEntry inHeader _ hforget fun calls₂ hnet₂ => ?_)
          rw [hend]
          exact hok sent it [] calls₂ hlist hwrote.room (hbal.undo hnet hnet₂)
            (.inl (.full hnext (by omega)))
        · intro hname hfits w' m' hw'
          obtain ⟨k, hk⟩ := recordLen_pos (layoutSize true) d
          have hlen : (sentBytes (sent ++ [(d, some e)])).length =
              (sentBytes sent).length + (k + 1) := by
            rw [sentBytes_snoc, length_append, length_recordBytes Option.isSome_some, hk]
          have hrest := wp_readdirplusLoop inHeader hlookup hforget hok herr hpanic rounds it' w' m'
            (sent ++ [(d, some e)]) calls₁ (hlist.snoc hnext rfl hname (by omega))
            (by rw [sentBytes_snoc]; exact hwrote.append hw') (hbal.snoc hnet) (by omega)
          rw [hlen] at hrest
          exact hk ▸ hrest
        · intro hname hfits hroom bytes
          rw [hwrote.availableBytes] at hroom
          refine Prog.wp_bind.mpr (wp_forgetEntry inHeader _ hforget fun calls₂ hnet₂ => ?_)
          rw [hwrote.storeAt]
          exact hfail _ bytes calls₂ (hbal.undo hnet hnet₂) (.noRoom hnext (by omega) (by omega))
      · rw [hend]
        exact hfail e [] calls₁ (fun inode hne => (hnet inode).trans (hbal inode hne))
          (.lookup rfl hanswer)

end Loops

end Server

end Virtiofsd
