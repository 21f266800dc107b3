/-
  # The ids of inodes and handles, across migrations

  An id is drawn from an atomic counter, and used under a lock that is taken later: until
  then, the id is with the thread that drew it.  The source reads its tables first and the
  counters afterwards, so whatever it has seen in a table was drawn before.

  The ids a thread has drawn, and those it has seen, are the tokens of `idTokens`.  `Fresh` is
  what they say about the tables: an id that is drawn is in no table and with no other
  thread, and all ids are below the counters.  Every action keeps it, as long as the counters
  do not wrap around (`fresh_of_perform`); they are 64 bits wide.
-/
import Virtiofsd.Migration.Footprint
import Virtiofsd.Migration.Parts
import Virtiofsd.Migration.Reading
import Virtiofsd.Passthrough.Resets

namespace Virtiofsd

open Lib InodeStoreInner Multiset PassthroughFs

/-! ## 1. Ids as tokens -/

/-- What a thread knows about ids.  `counters` is the right to set the counters, which no
thread has. -/
inductive IdToken where
  | inode (i : Inode)
  | handle (h : Handle)
  | seenInode (i : Inode)
  | seenHandle (h : Handle)
  | counters
  deriving DecidableEq

/-- The ids in the handle table that was read. -/
def seenHandles (l : List (Handle × HandleData)) : Multiset IdToken :=
  (l.map fun e => IdToken.seenHandle e.1 : List IdToken)

/-- **What the actions do with the ids their caller knows.** -/
def idTokens : TokenSpec SessionAct SessionAct.Ans IdToken where
  use
    | .act (.neutral (.query (.insertHandle h _))) => {.handle h}
    | .act (.neutral (.query (.storeNextInode _))) => {.counters}
    | .act (.neutral (.query (.storeNextHandle _))) => {.counters}
    | .act (.ref (.getOrInsert d _)) => {.inode d.inode}
    | .newInode c => if c.data.inode = ROOT_ID then 0 else {.inode c.data.inode}
    | _ => 0
  give
    | .act (.neutral (.query .fetchAddInode)), i => {.inode i}
    | .act (.neutral (.query .fetchAddHandle)), h => {.handle h}
    | .act (.neutral (.query (.nextAfter _))), r => match r with
      | some r => {.seenInode (InodeRef.data r).inode}
      | none => 0
    | .act (.neutral (.query .readHandles)), l => seenHandles l
    | _, _ => 0
  may
    | .act (.neutral (.query .loadNextInode)), τ, n => ROOT_ID < n ∧ ∀ i, .seenInode i ∈ τ → i < n
    | .act (.neutral (.query .loadNextHandle)), τ, n => ∀ h, .seenHandle h ∈ τ → h < n
    | .act (.ref (.getOrInsert _ _)), _, k => k ≠ InodeStoreInner.Insertion.doubleUse
    | _, _, _ => True

/-- An id that was drawn, and not used yet. -/
def IdToken.Drawn : IdToken → Prop
  | .inode _ => True
  | .handle _ => True
  | _ => False

/-- What a token says. -/
def IdToken.Valid (fs : PassthroughFs) : IdToken → Prop
  | .inode i => ROOT_ID < i ∧ i < fs.nextInode ∧ fs.inodes.data.lookup i = none
  | .handle h => h < fs.nextHandle ∧ h ∉ fs.handles
  | .seenInode i => i < fs.nextInode
  | .seenHandle h => h < fs.nextHandle
  | .counters => False

/-- **The ids in the tables and with the threads.** -/
structure Fresh (fs : PassthroughFs) (τ : Multiset IdToken) : Prop where
  wellFormed : fs.inodes.WellFormed
  root : ROOT_ID < fs.nextInode
  stored : ∀ i a, fs.inodes.data.lookup i = some a → i < fs.nextInode
  handles : ∀ h, h ∈ fs.handles → h < fs.nextHandle
  once : ∀ t, t.Drawn → τ.count t ≤ 1
  valid : ∀ t ∈ τ, t.Valid fs

variable {fs fs' : PassthroughFs} {τ τ' rest : Multiset IdToken}

/-- Tokens may be forgotten. -/
theorem Fresh.mono (h : Fresh fs τ) (hle : τ' ≤ τ) : Fresh fs τ' :=
  { h with
    once := fun t ht => le_trans (count_le_of_le _ hle) (h.once t ht)
    valid := fun t ht => h.valid t (mem_of_le hle ht) }

variable {t : IdToken}

/-- A token for an id that was drawn is used up. -/
theorem Fresh.use (h : Fresh fs (τ + {t})) (ht : t.Drawn) : Fresh fs τ ∧ t ∉ τ := by
  refine ⟨h.mono (le_add_right _ _), fun hmem => ?_⟩
  have hcount := h.once t ht
  rw [count_add, count_singleton_self] at hcount
  have hpos := count_pos.mpr hmem
  omega

/-- Ids that are seen are below the counters. -/
theorem Fresh.see {seen : Multiset IdToken} (h : Fresh fs τ)
    (hseen : ∀ t ∈ seen, ¬ t.Drawn ∧ t.Valid fs) : Fresh fs (τ + seen) :=
  { h with
    once := fun t ht => by
      have hnot : t ∉ seen := fun hmem => (hseen t hmem).1 ht
      rw [count_add, count_eq_zero_of_notMem hnot]
      exact h.once t ht
    valid := fun t hmem => by
      rcases mem_add.mp hmem with hmem | hmem
      · exact h.valid t hmem
      · exact (hseen t hmem).2 }

/-- An id that is drawn is with nobody else. -/
theorem Fresh.draw (h : Fresh fs τ) (ht : t.Valid fs) (hnot : t ∉ τ) :
    Fresh fs (τ + {t}) :=
  { h with
    once := fun u hu => by
      rw [count_add]
      by_cases hut : u = t
      · rw [hut, count_eq_zero_of_notMem hnot, count_singleton_self]
      · rw [count_singleton, if_neg hut]
        exact h.once u hu
    valid := fun u hmem => by
      rcases mem_add.mp hmem with hmem | hmem
      · exact h.valid u hmem
      · rw [mem_singleton.mp hmem]
        exact ht }

/-! ## 2. What the actions do to the tables -/

/-- **The tables after an action**: what is new in them is `inode` or `handle`. -/
structure TableStep (fs fs' : PassthroughFs) (inode : Option Inode) (handle : Option Handle) :
    Prop where
  wellFormed : fs'.inodes.WellFormed
  nextInode : fs.nextInode ≤ fs'.nextInode
  nextHandle : fs.nextHandle ≤ fs'.nextHandle
  stored : ∀ i a, fs'.inodes.data.lookup i = some a →
    (∃ b, fs.inodes.data.lookup i = some b) ∨ inode = some i
  handles : ∀ k, k ∈ fs'.handles → k ∈ fs.handles ∨ handle = some k

/-- What a token says stays true, unless it is about what is new. -/
theorem IdToken.Valid.step {inode : Option Inode} {handle : Option Handle}
    (h : TableStep fs fs' inode handle) (ht : t.Valid fs)
    (hinode : ∀ i, inode = some i → t ≠ .inode i) (hhandle : ∀ k, handle = some k → t ≠ .handle k) :
    t.Valid fs' := by
  cases t with
  | inode i =>
    obtain ⟨hroot, hlt, hnone⟩ := ht
    refine ⟨hroot, lt_of_lt_of_le hlt h.nextInode, ?_⟩
    cases hl : fs'.inodes.data.lookup i with
    | none => rfl
    | some a =>
      rcases h.stored i a hl with ⟨b, hb⟩ | hi
      · rw [hb] at hnone
        cases hnone
      · exact absurd rfl (hinode i hi)
  | handle k =>
    obtain ⟨hlt, hnot⟩ := ht
    refine ⟨lt_of_lt_of_le hlt h.nextHandle, fun hmem => ?_⟩
    rcases h.handles k hmem with hmem | hk
    · exact hnot hmem
    · exact hhandle k hk rfl
  | seenInode i => exact lt_of_lt_of_le ht h.nextInode
  | seenHandle k => exact lt_of_lt_of_le ht h.nextHandle
  | counters => exact ht

/-- **What is new was drawn**, so all ids stay below the counters. -/
theorem Fresh.step {inode : Option Inode} {handle : Option Handle} (h : Fresh fs τ)
    (hstep : TableStep fs fs' inode handle)
    (hinode : ∀ i, inode = some i → i < fs.nextInode ∧ .inode i ∉ τ)
    (hhandle : ∀ k, handle = some k → k < fs.nextHandle ∧ .handle k ∉ τ) : Fresh fs' τ where
  wellFormed := hstep.wellFormed
  root := lt_of_lt_of_le h.root hstep.nextInode
  stored i a hi := by
    refine lt_of_lt_of_le ?_ hstep.nextInode
    rcases hstep.stored i a hi with ⟨b, hb⟩ | hi
    · exact h.stored i b hb
    · exact (hinode i hi).1
  handles k hk := by
    refine lt_of_lt_of_le ?_ hstep.nextHandle
    rcases hstep.handles k hk with hk | hk
    · exact h.handles k hk
    · exact (hhandle k hk).1
  once := h.once
  valid t ht := by
    refine (h.valid t ht).step hstep (fun i hi => ?_) fun k hk => ?_
    · rintro rfl
      exact (hinode i hi).2 ht
    · rintro rfl
      exact (hhandle k hk).2 ht

/-- An action that puts nothing into the tables. -/
theorem Fresh.same (h : Fresh fs τ) (hstep : TableStep fs fs' none none) : Fresh fs' τ :=
  h.step hstep (fun _ hi => nomatch hi) fun _ hk => nomatch hk

theorem InodeStoreInner.WellFormed.emptied (s : InodeStoreInner) : s.emptied.WellFormed where
  stored i a h := by simp [InodeStoreInner.emptied] at h
  byIds ids i h := by simp [InodeStoreInner.emptied] at h
  byHandle fh i h := by simp [InodeStoreInner.emptied] at h

variable {s : InodeStoreInner}

theorem InodeStoreInner.WellFormed.storeRefcount (h : s.WellFormed) (r : InodeRef) (n : Nat) :
    (s.storeRefcount r n).WellFormed := by
  unfold InodeStoreInner.storeRefcount
  split
  · rename_i c hd
    exact h.setCell (deref_eq_some hd).1 rfl
  · exact h

variable {a : SessionAct} {r : a.Ans}

/-- The maps of the store agree after every action. -/
theorem SessionAct.PerformShared.wellFormed (h : a.PerformShared fs r fs')
    (hwf : fs.inodes.WellFormed) : fs'.inodes.WellFormed := by
  cases a with
  | clear =>
    obtain rfl := h
    exact WellFormed.emptied _
  | newInode c =>
    simp only [SessionAct.PerformShared] at h
    split at h
    · rename_i s hs
      rw [h.2]
      exact hwf.newInode hs
    · rw [h.2]
      exact hwf
  | storeRefcount r' n =>
    obtain rfl := h
    exact hwf.storeRefcount r' n
  | act a =>
    rcases a with (c | q) | a
    · obtain rfl := h
      exact hwf
    · have hs := answer_inodes q fs
      rw [h] at hs
      rw [hs]
      exact hwf
    · cases a with
      | increment r => cases h; exact hwf.edits (.incrementRefcount r)
      | claim handle ids => cases h; exact hwf.edits (.claimInode handle ids)
      | getOrInsert d info => cases h; exact hwf.getOrInsert d info
      | dropRef r => cases h; exact hwf.edits (.forgetOne .refl _ 1)
      | leak | adopt => cases h; exact hwf
      | forgetOne i n => cases h; exact hwf.edits (.forgetOne .refl i n)
      | forgetMany l => cases h; exact hwf.edits (.forgetMany l .refl)
      | exchangeInfo r info => cases h; exact hwf.exchangeInfo r info
      | clearMigrationInfo => cases h; exact hwf.edits .clearMigrationInfo

/-- How many ids an action draws. -/
def SessionAct.drawnInodes : SessionAct → Nat
  | .act (.neutral (.query .fetchAddInode)) => 1
  | _ => 0

def SessionAct.drawnHandles : SessionAct → Nat
  | .act (.neutral (.query .fetchAddHandle)) => 1
  | _ => 0

/-- **The counters do not wrap around**, and nobody sets them. -/
structure SessionAct.Counts (fs : PassthroughFs) (a : SessionAct) : Prop where
  inode : fs.nextInode + a.drawnInodes < 2 ^ 64
  handle : fs.nextHandle + a.drawnHandles < 2 ^ 64
  inodeKept : ∀ n, a ≠ .act (.neutral (.query (.storeNextInode n)))
  handleKept : ∀ n, a ≠ .act (.neutral (.query (.storeNextHandle n)))

/-- The handle that an action enters. -/
def SessionAct.entersHandle : SessionAct → Option Handle
  | .act (.neutral (.query (.insertHandle h _))) => some h
  | _ => none

/-- What the queries do to the counters and the handles. -/
theorem answer_tables (q : Query) (hcounts : SessionAct.Counts fs (.act (.neutral (.query q)))) :
    (answer q fs).2.nextInode =
        fs.nextInode + SessionAct.drawnInodes (.act (.neutral (.query q))) ∧
      (answer q fs).2.nextHandle =
        fs.nextHandle + SessionAct.drawnHandles (.act (.neutral (.query q))) ∧
      ∀ k, k ∈ (answer q fs).2.handles →
        k ∈ fs.handles ∨ SessionAct.entersHandle (.act (.neutral (.query q))) = some k := by
  cases q with
  | fetchAddInode => exact ⟨Nat.mod_eq_of_lt hcounts.inode, rfl, fun k hk => .inl hk⟩
  | fetchAddHandle => exact ⟨rfl, Nat.mod_eq_of_lt hcounts.handle, fun k hk => .inl hk⟩
  | storeNextInode n => exact absurd rfl (hcounts.inodeKept n)
  | storeNextHandle n => exact absurd rfl (hcounts.handleKept n)
  | insertHandle h d =>
    refine ⟨rfl, rfl, fun k hk => ?_⟩
    rcases (AList.mem_insert _).mp hk with rfl | hk
    · exact .inr rfl
    · exact .inl hk
  | clearHandles => exact ⟨rfl, rfl, fun k hk => absurd hk (AList.notMem_empty k)⟩
  | allocateFd =>
    simp only [answer]
    split <;> exact ⟨rfl, rfl, fun k hk => .inl hk⟩
  | removeHandle h i =>
    simp only [answer]
    split
    · split
      · exact ⟨rfl, rfl, fun k hk => .inl (AList.mem_erase.mp hk).2⟩
      · exact ⟨rfl, rfl, fun k hk => .inl hk⟩
    · exact ⟨rfl, rfl, fun k hk => .inl hk⟩
  | _ => exact ⟨rfl, rfl, fun k hk => .inl hk⟩

/-- **What every action does to the tables and the counters.** -/
theorem SessionAct.PerformShared.tables (h : a.PerformShared fs r fs') (hcounts : a.Counts fs)
    (hwf : fs.inodes.WellFormed) :
    TableStep fs fs' (a.inserts fs.inodes) a.entersHandle ∧
      fs'.nextInode = fs.nextInode + a.drawnInodes ∧
      fs'.nextHandle = fs.nextHandle + a.drawnHandles := by
  have hstored : ∀ i b, fs'.inodes.data.lookup i = some b →
      (∃ b, fs.inodes.data.lookup i = some b) ∨ a.inserts fs.inodes = some i := by
    intro i b hi
    rcases h.effects.lookup i b hi with hi | ⟨hi, -⟩
    · exact .inl ⟨b, hi⟩
    · exact .inr hi
  have hsame : fs'.nextInode = fs.nextInode → fs'.nextHandle = fs.nextHandle →
      fs'.handles = fs.handles → a.drawnInodes = 0 → a.drawnHandles = 0 →
      TableStep fs fs' (a.inserts fs.inodes) a.entersHandle ∧
        fs'.nextInode = fs.nextInode + a.drawnInodes ∧
        fs'.nextHandle = fs.nextHandle + a.drawnHandles := by
    intro hi hh hhandles hdi hdh
    rw [hdi, hdh]
    exact ⟨⟨h.wellFormed hwf, hi.ge, hh.ge, hstored, fun k hk => .inl (hhandles ▸ hk)⟩, hi, hh⟩
  cases a with
  | clear | storeRefcount => obtain rfl := h; exact hsame rfl rfl rfl rfl rfl
  | newInode c =>
    have hperform := h
    simp only [SessionAct.PerformShared] at hperform
    split at hperform <;> obtain ⟨-, rfl⟩ := hperform <;> exact hsame rfl rfl rfl rfl rfl
  | act a =>
    rcases a with (c | q) | a
    · obtain rfl := h; exact hsame rfl rfl rfl rfl rfl
    · have hanswer : answer q fs = (r, fs') := h
      obtain ⟨hi, hh, hhandles⟩ := answer_tables q hcounts
      rw [hanswer] at hi hh hhandles
      exact ⟨⟨h.wellFormed hwf, hi ▸ Nat.le_add_right _ _, hh ▸ Nat.le_add_right _ _, hstored,
        hhandles⟩, hi, hh⟩
    · cases a <;> cases h <;> exact hsame rfl rfl rfl rfl rfl

/-! ## 3. The tokens are the ids -/

/-- The next value of a counter is in use nowhere. -/
theorem Fresh.inode_notMem (h : Fresh fs τ) :
    fs.inodes.data.lookup fs.nextInode = none ∧ .inode fs.nextInode ∉ τ := by
  refine ⟨?_, fun hmem => absurd (h.valid _ hmem).2.1 (lt_irrefl _)⟩
  cases hl : fs.inodes.data.lookup fs.nextInode with
  | none => rfl
  | some a => exact absurd (h.stored _ a hl) (lt_irrefl _)

theorem Fresh.handle_notMem (h : Fresh fs τ) :
    fs.nextHandle ∉ fs.handles ∧ .handle fs.nextHandle ∉ τ :=
  ⟨fun hmem => absurd (h.handles _ hmem) (lt_irrefl _),
    fun hmem => absurd (h.valid _ hmem).1 (lt_irrefl _)⟩

/-- A handle that is read from the table is in it. -/
theorem mem_of_mem_readHandles {k : Handle}
    (h : .seenHandle k ∈ seenHandles (answer .readHandles fs).1) :
    k ∈ fs.handles := by
  obtain ⟨e, he, hk⟩ := List.mem_map.mp (mem_coe.mp h)
  obtain ⟨x, hx, rfl⟩ := List.mem_map.mp he
  cases hk
  exact AList.mem_keys.mpr (List.mem_map_of_mem hx)

section

variable (h : Fresh fs (rest + τ))

include h

/-- The counters can be set only by those who have the right to. -/
theorem Fresh.counts (huse : idTokens.use a ≤ τ) (hinode : fs.nextInode + a.drawnInodes < 2 ^ 64)
    (hhandle : fs.nextHandle + a.drawnHandles < 2 ^ 64) : a.Counts fs := by
  have hright : IdToken.counters ∉ idTokens.use a := fun hmem =>
    h.valid .counters (mem_add.mpr (.inr (mem_of_le huse hmem)))
  refine ⟨hinode, hhandle, ?_, ?_⟩ <;> rintro n rfl
  · exact hright (mem_singleton_self _)
  · exact hright (mem_singleton_self _)

/-- An action that neither draws nor uses nor shows an id. -/
theorem Fresh.quiet (hstep : TableStep fs fs' (a.inserts fs.inodes) a.entersHandle)
    (huse : idTokens.use a = 0) (hgive : idTokens.give a r = 0)
    (hinode : a.inserts fs.inodes = none) (hhandle : a.entersHandle = none) :
    Fresh fs' (rest + idTokens.after a r τ) := by
  rw [TokenSpec.after_of_use huse, hgive, add_zero]
  rw [hinode, hhandle] at hstep
  exact h.same hstep

/-- A thread that gives up an id it has drawn. -/
theorem Fresh.spend (huse : {t} ≤ τ) (ht : t.Drawn) :
    t.Valid fs ∧ Fresh fs (rest + (τ - {t})) ∧ t ∉ rest + (τ - {t}) := by
  have hsum : rest + τ = rest + (τ - {t}) + {t} := by
    rw [add_assoc, tsub_add_cancel_of_le huse]
  rw [hsum] at h
  exact ⟨h.valid t (mem_add.mpr (.inr (mem_singleton_self t))), h.use ht⟩

/-- What is put into the store under a drawn id. -/
theorem Fresh.store {i : Inode} (hstep : TableStep fs fs' (a.inserts fs.inodes) a.entersHandle)
    (huse : idTokens.use a = {.inode i}) (hle : idTokens.use a ≤ τ)
    (hgive : idTokens.give a r = 0) (hhandle : a.entersHandle = none)
    (hinserts : ∀ k, a.inserts fs.inodes = some k → k = i) :
    Fresh fs' (rest + idTokens.after a r τ) := by
  rw [TokenSpec.after, huse, hgive, add_zero]
  rw [huse] at hle
  rw [hhandle] at hstep
  obtain ⟨hvalid, hfresh, hnot⟩ := h.spend hle trivial
  refine hfresh.step hstep (fun k hk => ?_) fun _ hk => by cases hk
  obtain rfl := hinserts k hk
  exact ⟨hvalid.2.1, hnot⟩

end

/-- A new inode gets the id that it was built with. -/
theorem SessionAct.inserts_newInode {c : Cell} {k : Inode}
    (h : SessionAct.inserts s (.newInode c) = some k) : k = c.data.inode := by
  simp only [SessionAct.inserts] at h
  split at h
  · cases h
  · cases h
    rfl

theorem SessionAct.inserts_getOrInsert {d : InodeData} {info : Option InodeMigrationInfo}
    {k : Inode} (h : SessionAct.inserts s (.act (.ref (.getOrInsert d info))) = some k) :
    k = d.inode := by
  simp only [SessionAct.inserts] at h
  split at h
  · cases h
    rfl
  · cases h

/-- **An id that is not in the store is not used twice.** -/
theorem InodeStoreInner.getOrInsert_ne_doubleUse {d : InodeData}
    (h : s.data.lookup d.inode = none) (info : Option InodeMigrationInfo) :
    (s.getOrInsert d info).1 ≠ .doubleUse := by
  have hfree : s.contains d.inode = false := by simp [InodeStoreInner.contains, h]
  unfold InodeStoreInner.getOrInsert
  split
  · simp
  · simp
  · rename_i hclaim
    obtain rfl := claimInode_of_not_found hclaim (by simp)
    simp [hfree]

/-- What the iterator over the store returns is in it. -/
theorem InodeStoreInner.WellFormed.nextAfter_stored (h : s.WellFormed) {last : Option Inode}
    {r : InodeRef} (hr : s.nextAfter last = some r) :
    s.data.lookup r.data.inode = some r.addr := by
  obtain ⟨i, -, hi⟩ := Option.bind_eq_some_iff.mp hr
  rw [h.get_inode hi]
  exact (get_eq_some.mp hi).1

/-- **Every action keeps the accounting of ids**, performed by a thread that holds the tokens
it needs, as long as the counters do not wrap around. -/
theorem fresh_of_perform (h : Fresh fs (rest + τ)) (huse : idTokens.use a ≤ τ)
    (hp : a.PerformShared fs r fs') (hinode : fs.nextInode + a.drawnInodes < 2 ^ 64)
    (hhandle : fs.nextHandle + a.drawnHandles < 2 ^ 64) :
    idTokens.may a τ r ∧ Fresh fs' (rest + idTokens.after a r τ) := by
  have hcounts := h.counts huse hinode hhandle
  obtain ⟨hstep, hnext, hnextHandle⟩ := hp.tables hcounts h.wellFormed
  cases a with
  | clear | storeRefcount => exact ⟨trivial, h.quiet hstep rfl rfl rfl rfl⟩
  | newInode c =>
    refine ⟨trivial, ?_⟩
    by_cases hroot : c.data.inode = ROOT_ID
    · -- The root's id is fixed, and not drawn.
      have hfree : idTokens.use (.newInode c) = 0 := if_pos hroot
      rw [TokenSpec.after_of_use hfree]
      refine (add_zero τ).symm ▸ h.step hstep (fun k hk => ?_) fun _ hk => nomatch hk
      rw [SessionAct.inserts_newInode hk, hroot]
      exact ⟨h.root, fun hmem => absurd (h.valid _ hmem).1 (lt_irrefl _)⟩
    · exact h.store hstep (if_neg hroot) huse rfl rfl fun k hk => SessionAct.inserts_newInode hk
  | act a =>
    rcases a with (c | q) | a
    · exact ⟨trivial, h.quiet hstep rfl rfl rfl rfl⟩
    · have hanswer : answer q fs = (r, fs') := hp
      cases q with
      | fetchAddInode =>
        cases hanswer
        obtain ⟨hnone, hnot⟩ := h.inode_notMem
        rw [TokenSpec.after_of_use rfl, ← add_assoc]
        refine ⟨trivial, (h.same hstep).draw ⟨h.root, ?_, hnone⟩ hnot⟩
        rw [hnext]
        exact Nat.lt_succ_self _
      | fetchAddHandle =>
        cases hanswer
        obtain ⟨hfree, hnot⟩ := h.handle_notMem
        rw [TokenSpec.after_of_use rfl, ← add_assoc]
        refine ⟨trivial, (h.same hstep).draw ⟨?_, hfree⟩ hnot⟩
        rw [hnextHandle]
        exact Nat.lt_succ_self _
      | nextAfter last =>
        cases hanswer
        refine ⟨trivial, ?_⟩
        cases hr : fs.inodes.nextAfter last with
        | none => exact h.quiet hstep rfl rfl rfl rfl
        | some r =>
          rw [TokenSpec.after_of_use rfl, ← add_assoc]
          refine h.see fun t ht => ?_
          rw [mem_singleton.mp ht]
          exact ⟨id, h.stored _ _ (h.wellFormed.nextAfter_stored hr)⟩
      | readHandles =>
        cases hanswer
        rw [TokenSpec.after_of_use rfl, ← add_assoc]
        refine ⟨trivial, h.see fun t ht => ?_⟩
        obtain ⟨e, he, rfl⟩ := List.mem_map.mp (mem_coe.mp ht)
        exact ⟨id, h.handles _ (mem_of_mem_readHandles ht)⟩
      | loadNextInode =>
        cases hanswer
        exact ⟨⟨h.root, fun i hi => h.valid _ (mem_add.mpr (.inr hi))⟩,
          h.quiet hstep rfl rfl rfl rfl⟩
      | loadNextHandle =>
        cases hanswer
        exact ⟨fun k hk => h.valid _ (mem_add.mpr (.inr hk)),
          h.quiet hstep rfl rfl rfl rfl⟩
      | insertHandle k d =>
        obtain ⟨hvalid, hfresh, hnot⟩ := h.spend huse trivial
        have hafter : rest + idTokens.after (.act (.neutral (.query (.insertHandle k d)))) r τ =
            rest + (τ - {.handle k}) := congrArg (rest + ·) (add_zero _)
        refine ⟨trivial, hafter ▸ hfresh.step hstep (fun _ hi => nomatch hi) fun j hj => ?_⟩
        cases hj
        exact ⟨hvalid.1, hnot⟩
      | storeNextInode n => exact absurd rfl (hcounts.inodeKept n)
      | storeNextHandle n => exact absurd rfl (hcounts.handleKept n)
      | _ => exact ⟨trivial, h.quiet hstep rfl rfl rfl rfl⟩
    · cases a with
      | getOrInsert d info =>
        refine ⟨?_, h.store hstep rfl huse rfl rfl fun k hk => SessionAct.inserts_getOrInsert hk⟩
        have hnone := (h.spend huse trivial).1.2.2
        cases hp
        exact InodeStoreInner.getOrInsert_ne_doubleUse hnone info
      | _ => exact ⟨trivial, h.quiet hstep rfl rfl rfl rfl⟩

end Virtiofsd
