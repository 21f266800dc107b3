/-
  # The two indexes of the inode store

  Besides `data`, the store has two maps from what the host knows to FUSE inode ids: `by_ids`
  and `by_handle`.  Their values are UNWRAPPED when they are used, so each has to be the id of
  an inode in the store (`index_sound`).  That holds for any sequence of operations, though
  `insert_new` overwrites index entries and `remove` erases them whoever they belong to.

  The other direction, that an inode in the store is FOUND through its index, needs more: two
  inodes with the same ids share one entry of `by_ids`, and the first one to be removed takes
  it away from the other.  It holds if no two files with the same ids are ever inserted, and
  that is what `get_or_insert` sees to (`one_id_per_host_object`).
-/
import Virtiofsd.InodeStore.Live
import Mathlib.Logic.Relation

namespace Virtiofsd

open InodeStoreInner

variable {s s' : InodeStoreInner} {a : Nat} {c c' : Cell} {i j : Inode} {r r' : InodeRef}

/-! ## 1. Operations, and where they panic -/

/-- The `unwrap`s of `get_by_ids` and `get_by_handle`, and the `assert!` of `insert_new`. -/
inductive StorePanic where
  | indexUnwrap
  | insertNewAssert
  deriving DecidableEq

/-- **The operations of the store.**  A strong reference is taken from an `Arc` (also by
`clone`) or from an id.  Dropping a strong reference, also one that was in a migration info
which is replaced, is an operation of its own. -/
inductive StoreOp where
  | getOrInsert (data : InodeData) (info : Option InodeMigrationInfo)
  | newInode (cell : Cell)
  | claimInode (handle : Option FileHandle) (ids : InodeIds)
  | forgetOne (inode : Inode) (count : Nat)
  | forgetMany (requests : List (Inode × Nat))
  | clear
  | clearMigrationInfo
  | strongFromArc (r : InodeRef)
  | getStrong (inode : Inode)
  | dropStrong (r : InodeRef)
  | setMigrationInfo (r : InodeRef) (info : Option InodeMigrationInfo)

/-- `insert_new` has been reached with the store `s`; `s'` is the store after it. -/
def assertNew (s : InodeStoreInner) (inode : Inode) (s' : InodeStoreInner) :
    Except StorePanic InodeStoreInner :=
  if s.contains inode then .error .insertNewAssert else .ok s'

/-- Perform an operation. -/
def StoreOp.run (s : InodeStoreInner) : StoreOp → Except StorePanic InodeStoreInner
  | getOrInsert data info =>
    match s.getOrInsert data info with
    | (.dangling, _) => .error .indexUnwrap
    | (.inserted _, s') => assertNew s data.inode s'
    | (_, s') => .ok s'
  | newInode cell =>
    match s.newInode cell with
    | some s' => assertNew s cell.data.inode s'
    | none => .ok s
  | claimInode handle ids =>
    match s.claimInode handle ids with
    | (.dangling, _) => .error .indexUnwrap
    | (_, s') => .ok s'
  | forgetOne inode count => .ok (s.forgetOne inode count)
  | forgetMany requests => .ok (s.forgetMany requests)
  | clear => .ok s.clear
  | clearMigrationInfo => .ok s.clearMigrationInfo
  | strongFromArc r => .ok (s.incrementRefcount r).2
  | getStrong inode =>
    match s.get inode with
    | some r => .ok (s.incrementRefcount r).2
    | none => .ok s
  | dropStrong r => .ok (s.forgetOne r.data.inode 1)
  | setMigrationInfo r info => .ok (s.exchangeInfo r info).2

/-- **Every index entry leads to a live inode with exactly these ids, or this handle.** -/
structure IndexSound (s : InodeStoreInner) : Prop where
  byIds : ∀ ids i, s.inodeByIds ids = some i →
    ∃ r, s.get i = some r ∧ r.data.inode = i ∧ r.data.ids = ids
  byHandle : ∀ h i, s.inodeByHandle h = some i →
    ∃ r, s.get i = some r ∧ r.data.inode = i ∧ r.data.fileOrHandle = .handle h

/-! ## 2. Soundness of the indexes -/

theorem indexHandle_eq_some {d : InodeData} {h : FileHandle} :
    indexHandle d = some h ↔ d.fileOrHandle = .handle h := by
  unfold indexHandle
  cases d.fileOrHandle <;> simp

theorem InodeStoreInner.WellFormed.indexSound (h : s.WellFormed) : IndexSound s where
  byIds ids i hi := by
    obtain ⟨r, hr, hids⟩ := h.byIds ids i hi
    exact ⟨r, hr, h.get_inode hr, hids⟩
  byHandle fh i hi := by
    obtain ⟨r, hr, hfh⟩ := h.byHandle fh i hi
    exact ⟨r, hr, h.get_inode hr, indexHandle_eq_some.mp hfh⟩

/-- **No operation panics**, and all of them leave the maps in agreement. -/
theorem StoreOp.run_wellFormed (h : s.WellFormed) (op : StoreOp) :
    ∃ s', op.run s = .ok s' ∧ s'.WellFormed := by
  cases op with
  | getOrInsert data info =>
    have hwf := h.getOrInsert data info
    have hindex := h.claimInode_ne_dangling (indexHandle data) data.ids
    simp only [StoreOp.run]
    rcases getOrInsert_cases s data info with
      ⟨r, heq, _⟩ | ⟨heq, hdangling⟩ | heq | ⟨heq, _, hnew⟩ <;> rw [heq] at hwf ⊢
    · exact ⟨_, rfl, hwf⟩
    · exact absurd hdangling hindex
    · exact ⟨_, rfl, hwf⟩
    · exact ⟨_, if_neg (by simp [hnew]), hwf⟩
  | newInode cell =>
    simp only [StoreOp.run]
    cases hnew : s.newInode cell with
    | none => exact ⟨s, rfl, h⟩
    | some s' =>
      have hfree : s.contains cell.data.inode = false := by
        unfold InodeStoreInner.newInode at hnew
        split at hnew
        · cases hnew
        · rename_i hfree
          simpa using hfree
      exact ⟨s', if_neg (by simp [hfree]), h.newInode hnew⟩
  | claimInode handle ids =>
    have hwf := h.edits (.claimInode handle ids)
    have hindex := h.claimInode_ne_dangling handle ids
    simp only [StoreOp.run]
    rcases hk : s.claimInode handle ids with ⟨_ | _ | _, s₁⟩ <;> rw [hk] at hwf hindex
    · exact ⟨s₁, rfl, hwf⟩
    · exact ⟨s₁, rfl, hwf⟩
    · exact absurd rfl hindex
  | forgetOne inode count => exact ⟨_, rfl, h.edits (.forgetOne .refl inode count)⟩
  | forgetMany requests => exact ⟨_, rfl, h.edits (.forgetMany requests .refl)⟩
  | clear => exact ⟨_, rfl, WellFormed.empty⟩
  | clearMigrationInfo => exact ⟨_, rfl, h.edits .clearMigrationInfo⟩
  | strongFromArc r => exact ⟨_, rfl, h.edits (.incrementRefcount r)⟩
  | getStrong inode =>
    simp only [StoreOp.run]
    split
    · exact ⟨_, rfl, h.edits (.incrementRefcount _)⟩
    · exact ⟨s, rfl, h⟩
  | dropStrong r => exact ⟨_, rfl, h.edits (.forgetOne .refl r.data.inode 1)⟩
  | setMigrationInfo r info => exact ⟨_, rfl, h.exchangeInfo r info⟩

/-- One operation after the other, until one panics. -/
def StoreOp.runAll : List StoreOp → InodeStoreInner → Except StorePanic InodeStoreInner
  | [], s => .ok s
  | op :: ops, s =>
    match op.run s with
    | .ok s' => runAll ops s'
    | .error p => .error p

theorem StoreOp.runAll_wellFormed : ∀ (ops : List StoreOp) {s : InodeStoreInner}, s.WellFormed →
    ∃ s', runAll ops s = .ok s' ∧ s'.WellFormed
  | [], s, h => ⟨s, rfl, h⟩
  | op :: ops, s, h => by
    obtain ⟨s₁, hr, h₁⟩ := op.run_wellFormed h
    obtain ⟨s₂, hrs, h₂⟩ := runAll_wellFormed ops h₁
    exact ⟨s₂, by simp only [runAll, hr, hrs], h₂⟩

/-- **The indexes are sound after any sequence of operations**, whatever ids, handles, FUSE
inode ids and references it is given, and no operation has panicked.  No lookup then finds an
index entry without an inode. -/
theorem index_sound (ops : List StoreOp) :
    ∃ s, StoreOp.runAll ops .empty = .ok s ∧ IndexSound s ∧
      ∀ handle ids, s.findInode handle ids ≠ .dangling := by
  obtain ⟨s, hr, h⟩ := StoreOp.runAll_wellFormed ops WellFormed.empty
  exact ⟨s, hr, h.indexSound, h.findInode_ne_dangling⟩

/-! ## 3. Every inode is found through its index -/

/-- How the daemon reaches an inode. -/
inductive Backing where
  | file
  | handle
  deriving DecidableEq

/-- The inode is reached the way `kind` says for its ids. -/
def InodeData.BackedBy (kind : InodeIds → Backing) (d : InodeData) : Prop :=
  match kind d.ids with
  | .file => ∃ fd, d.fileOrHandle = .file fd
  | .handle => ∃ h, d.fileOrHandle = .handle h

/-- **Every inode in the store can be found**: a file through `by_ids`, a handle through
`by_handle`, and by whoever finds it, it can be referenced. -/
structure Indexed (kind : InodeIds → Backing) (s : InodeStoreInner) : Prop where
  wellFormed : s.WellFormed
  backed : ∀ i r, s.get i = some r → r.data.BackedBy kind
  positive : ∀ i c, s.cell? i = some c → 0 < c.refcount
  byIds : ∀ i r fd, s.get i = some r → r.data.fileOrHandle = .file fd →
    s.inodeByIds r.data.ids = some i
  byHandle : ∀ i r h, s.get i = some r → r.data.fileOrHandle = .handle h →
    s.inodeByHandle h = some i

section

variable {kind : InodeIds → Backing} {d : InodeData} {info : Option InodeMigrationInfo}

theorem cell?_of_get (hr : s.get i = some r) : ∃ c, s.cell? i = some c ∧
    s.cells[r.addr]? = some c ∧ c.data = r.data := by
  obtain ⟨hl, c, hc, hd⟩ := get_eq_some.mp hr
  exact ⟨c, by simp [cell?, hl, hc], hc, hd⟩

/-- Two inodes with the same ids are both files or both handles. -/
theorem InodeData.BackedBy.file_of_ids {d d' : InodeData} (h : d.BackedBy kind)
    (h' : d'.BackedBy kind) (hids : d'.ids = d.ids) {fd : Fd} (hfd : d.fileOrHandle = .file fd) :
    ∃ fd', d'.fileOrHandle = .file fd' := by
  unfold InodeData.BackedBy at h h'
  rw [hids] at h'
  cases hk : kind d.ids with
  | file =>
    rw [hk] at h'
    exact h'
  | handle =>
    rw [hk] at h
    obtain ⟨fh, hfh⟩ := h
    rw [hfd] at hfh
    cases hfh

namespace Indexed

section

variable (h : Indexed kind s)

include h

theorem unique_file (hr : s.get i = some r) {fd : Fd} (hfd : r.data.fileOrHandle = .file fd)
    (hr' : s.get j = some r') (hids : r'.data.ids = r.data.ids) : j = i := by
  obtain ⟨fd', hfd'⟩ := (h.backed i r hr).file_of_ids (h.backed j r' hr') hids hfd
  have hi := h.byIds i r fd hr hfd
  have hj := h.byIds j r' fd' hr' hfd'
  rw [hids, hi] at hj
  exact (Option.some.inj hj).symm

theorem unique_handle {fh : FileHandle} (hr : s.get i = some r)
    (hfh : r.data.fileOrHandle = .handle fh) (hr' : s.get j = some r')
    (hfh' : r'.data.fileOrHandle = .handle fh) : j = i := by
  have hi := h.byHandle i r fh hr hfh
  have hj := h.byHandle j r' fh hr' hfh'
  rw [hi] at hj
  exact (Option.some.inj hj).symm

/-- What is found can be claimed: its refcount is not zero. -/
theorem claimInode_of_find {handle : Option FileHandle} {ids : InodeIds}
    (hfind : s.findInode handle ids = .found r) (hr : s.get i = some r) :
    (s.claimInode handle ids).1 = .found r := by
  obtain ⟨c, hcell, hc, hd⟩ := cell?_of_get hr
  have hpos := h.positive i c hcell
  have hderef : s.deref r = some c := by simp [deref, hc, hd]
  simp [InodeStoreInner.claimInode, hfind, InodeStoreInner.incrementRefcount, hderef, hpos]

/-- A file is found by its ids, unless the handle that is given with them leads elsewhere. -/
theorem claimInode_file (hr : s.get i = some r) {fd : Fd} (hfd : r.data.fileOrHandle = .file fd)
    {handle : Option FileHandle} (hnone : handle.bind s.inodeByHandle = none) :
    (s.claimInode handle r.data.ids).1 = .found r := by
  refine h.claimInode_of_find ?_ hr
  unfold InodeStoreInner.findInode
  rw [hnone, h.byIds i r fd hr hfd]
  simp [hr, hfd]

/-- A handle is found by itself, whatever ids are given with it. -/
theorem claimInode_handle {fh : FileHandle} (hr : s.get i = some r)
    (hfh : r.data.fileOrHandle = .handle fh) (ids : InodeIds) :
    (s.claimInode (some fh) ids).1 = .found r := by
  refine h.claimInode_of_find ?_ hr
  unfold InodeStoreInner.findInode
  rw [Option.bind_some, h.byHandle i r fh hr hfh]
  simp [hr]

end

/-! ## 4. What keeps it so -/

/-- A new refcount, or a new migration info. -/
theorem setCell (h : Indexed kind s) (hc : s.cells[a]? = some c) (hd : c'.data = c.data)
    (hpos : 0 < c.refcount → 0 < c'.refcount) : Indexed kind (s.setCell a c') where
  wellFormed := h.wellFormed.setCell hc hd
  backed i r hr := by
    rw [get_setCell hc hd] at hr
    exact h.backed i r hr
  positive i c₁ hc₁ := by
    unfold cell? at hc₁
    rw [setCell_data] at hc₁
    obtain ⟨b, hl, hb⟩ := Option.bind_eq_some_iff.mp hc₁
    rw [getElem?_setCell hc] at hb
    split at hb
    · rename_i heq
      cases hb
      exact hpos (h.positive i c (Option.bind_eq_some_iff.mpr ⟨b, hl, heq ▸ hc⟩))
    · exact h.positive i c₁ (Option.bind_eq_some_iff.mpr ⟨b, hl, hb⟩)
  byIds i r fd hr := by
    rw [get_setCell hc hd] at hr
    exact h.byIds i r fd hr
  byHandle i r fh hr := by
    rw [get_setCell hc hd] at hr
    exact h.byHandle i r fh hr

/-- **An inode is removed.**  No other inode that needs an index entry shares it. -/
theorem remove (h : Indexed kind s) {n : Nat} (hl : s.data.lookup i = some a)
    (hc : s.cells[a]? = some c) : Indexed kind (s.removed a c n) := by
  have hstored := h.wellFormed.stored
  have hget : s.get i = some ⟨a, c.data⟩ := get_eq_some.mpr ⟨hl, c, hc, rfl⟩
  -- the inodes that stay are those that were there, but for `i`
  have hstay : ∀ j r, (s.removed a c n).get j = some r → j ≠ i ∧ s.get j = some r := by
    intro j r hr
    rw [get_removed hstored hl hc] at hr
    split at hr
    · cases hr
    · exact ⟨‹_›, hr⟩
  refine ⟨h.wellFormed.remove hl hc, fun j r hr => h.backed j r (hstay j r hr).2,
    fun j c₁ hc₁ => ?_, fun j r fd hr hfd => ?_, fun j r fh hr hfh => ?_⟩
  · rw [cell?_removed hstored hl hc] at hc₁
    split at hc₁
    · cases hc₁
    · exact h.positive j c₁ hc₁
  · obtain ⟨hji, hr⟩ := hstay j r hr
    have hne : r.data.ids ≠ c.data.ids := fun hids =>
      hji (h.unique_file hr hfd hget hids.symm).symm
    exact (AList.lookup_erase_ne hne).trans (h.byIds j r fd hr hfd)
  · obtain ⟨hji, hr⟩ := hstay j r hr
    have hkeep := h.byHandle j r fh hr hfh
    simp only [inodeByHandle, removed, detach, Cell.released]
    split
    · rename_i fh' hfh'
      have hne : fh ≠ fh' := by
        rintro rfl
        exact hji (h.unique_handle hr hfh hget (indexHandle_eq_some.mp hfh')).symm
      rw [AList.lookup_erase_ne hne]
      exact hkeep
    · exact hkeep

theorem edits (h : Indexed kind s) (he : Edits s s') : Indexed kind s' := by
  induction he with
  | refl => exact h
  | setCell _ hc hd _ hpos ih => exact ih.setCell hc hd hpos
  | remove _ hl hc ih => exact ih.remove hl hc

/-- **A new inode**, if `do_claim_inode` has not found one: nobody else has its index entry. -/
theorem insertNew (h : Indexed kind s) (hbacked : d.BackedBy kind)
    (hclaim : (s.claimInode (indexHandle d) d.ids).1 = .notFound)
    (hnew : s.contains d.inode = false) : Indexed kind (s.insertNew ⟨d, 1, info⟩).2 := by
  have hwf : (s.insertNew ⟨d, 1, info⟩).2.WellFormed :=
    h.wellFormed.insertNew (c := ⟨d, 1, info⟩) hnew
  -- the inodes are the new one and those that were there
  have hcases : ∀ j r, (s.insertNew ⟨d, 1, info⟩).2.get j = some r →
      (j = d.inode ∧ r.data = d) ∨ (j ≠ d.inode ∧ s.get j = some r) := by
    intro j r hr
    rw [get_insertNew h.wellFormed.stored] at hr
    split at hr
    · cases hr
      exact .inl ⟨‹_›, rfl⟩
    · exact .inr ⟨‹_›, hr⟩
  refine ⟨hwf, fun j r hr => ?_, fun j c hc => ?_, fun j r fd hr hfd => ?_, fun j r fh hr hfh => ?_⟩
  · rcases hcases j r hr with ⟨-, hd⟩ | ⟨-, hr⟩
    · rw [hd]
      exact hbacked
    · exact h.backed j r hr
  · rw [cell?_insertNew h.wellFormed.stored] at hc
    split at hc
    · cases hc
      exact Nat.one_pos
    · exact h.positive j c hc
  · show (AList.insert _ _ _).lookup _ = _
    rcases hcases j r hr with ⟨rfl, hd⟩ | ⟨-, hr⟩
    · rw [hd]
      exact AList.lookup_insert _
    · have hne : r.data.ids ≠ d.ids := by
        intro hids
        obtain ⟨fd', hfd'⟩ := (h.backed j r hr).file_of_ids hbacked hids.symm hfd
        have hnone : indexHandle d = none := by simp [indexHandle, hfd']
        have hfound : (s.claimInode none r.data.ids).1 = .found r :=
          h.claimInode_file hr hfd rfl
        rw [hids, ← hnone, hclaim] at hfound
        cases hfound
      rw [AList.lookup_insert_ne hne]
      exact h.byIds j r fd hr hfd
  · unfold inodeByHandle InodeStoreInner.insertNew
    dsimp only
    rcases hcases j r hr with ⟨rfl, hd⟩ | ⟨-, hr⟩
    · rw [hd] at hfh
      rw [indexHandle_eq_some.mpr hfh]
      exact AList.lookup_insert _
    · split
      · rename_i fh' hfh'
        have hne : fh ≠ fh' := by
          rintro rfl
          have hfound := h.claimInode_handle hr hfh d.ids
          rw [← hfh', hclaim] at hfound
          cases hfound
        rw [AList.lookup_insert_ne hne]
        exact h.byHandle j r fh hr hfh
      · exact h.byHandle j r fh hr hfh

theorem getOrInsert (h : Indexed kind s) (hbacked : d.BackedBy kind) :
    Indexed kind (s.getOrInsert d info).2 := by
  rcases getOrInsert_cases s d info with ⟨r, heq, _⟩ | ⟨heq, _⟩ | heq | ⟨heq, hclaim, hnew⟩ <;>
    rw [heq]
  · exact h.edits (.claimInode _ _)
  · exact h
  · exact h
  · exact h.insertNew hbacked hclaim hnew

end Indexed

/-! ## 5. Threads -/

/-- The store of a session that has just begun: only the root is in it. -/
def rootStore (root : InodeData) (refcount : Nat) : InodeStoreInner :=
  (InodeStoreInner.empty.insertNew ⟨root, refcount, none⟩).2

/-- **One step of one of the threads.**  Each is atomic: `claim_inode` holds the lock for
reading and nobody decrements a refcount then, the others hold it for writing.  Inodes are
inserted the way `kind` says for their ids. -/
inductive StoreStep (kind : InodeIds → Backing) : InodeStoreInner → InodeStoreInner → Prop where
  | claimInode (s : InodeStoreInner) (handle : Option FileHandle) (ids : InodeIds) :
      StoreStep kind s (s.claimInode handle ids).2
  | getOrInsert (s : InodeStoreInner) (d : InodeData) (info : Option InodeMigrationInfo)
      (hd : d.BackedBy kind) : StoreStep kind s (s.getOrInsert d info).2
  | forgetOne (s : InodeStoreInner) (inode : Inode) (count : Nat) :
      StoreStep kind s (s.forgetOne inode count)
  | forgetMany (s : InodeStoreInner) (requests : List (Inode × Nat)) :
      StoreStep kind s (s.forgetMany requests)
  | dropStrong (s : InodeStoreInner) (r : InodeRef) :
      StoreStep kind s (s.forgetOne r.data.inode 1)

/-- **One FUSE inode id for each object of the host**, under which it is found. -/
structure OneIdPerObject (s : InodeStoreInner) : Prop where
  /-- A file is the only inode with its ids, and is claimed by them, with no handle or with
  one that no inode has. -/
  file : ∀ i r fd, s.get i = some r → r.data.fileOrHandle = .file fd →
    (∀ j r', s.get j = some r' → r'.data.ids = r.data.ids → j = i) ∧
      ∀ handle : Option FileHandle, handle.bind s.inodeByHandle = none →
        (s.claimInode handle r.data.ids).1 = .found r
  /-- A handle is the only inode with this handle, and is claimed by it with any ids. -/
  handle : ∀ i r fh, s.get i = some r → r.data.fileOrHandle = .handle fh →
    (∀ j r', s.get j = some r' → r'.data.fileOrHandle = .handle fh → j = i) ∧
      ∀ ids, (s.claimInode (some fh) ids).1 = .found r

theorem Indexed.oneIdPerObject (h : Indexed kind s) : OneIdPerObject s where
  file _ _ _ hr hfd :=
    ⟨fun _ _ hr' hids => h.unique_file hr hfd hr' hids,
      fun _ hnone => h.claimInode_file hr hfd hnone⟩
  handle _ _ _ hr hfh :=
    ⟨fun _ _ hr' hfh' => h.unique_handle hr hfh hr' hfh', fun ids => h.claimInode_handle hr hfh ids⟩

theorem StoreStep.indexed (hs : StoreStep kind s s') (h : Indexed kind s) : Indexed kind s' := by
  cases hs with
  | claimInode handle ids => exact h.edits (.claimInode handle ids)
  | getOrInsert d info hd => exact h.getOrInsert hd
  | forgetOne inode count => exact h.edits (.forgetOne .refl inode count)
  | forgetMany requests => exact h.edits (.forgetMany requests .refl)
  | dropStrong r => exact h.edits (.forgetOne .refl r.data.inode 1)

theorem rootStore_indexed {root : InodeData} {refcount : Nat} (hbacked : root.BackedBy kind)
    (hpos : 0 < refcount) : Indexed kind (rootStore root refcount) := by
  have hempty : Indexed kind InodeStoreInner.empty :=
    ⟨WellFormed.empty, fun _ _ h => by simp [InodeStoreInner.get, InodeStoreInner.empty] at h,
      fun _ _ h => by simp [cell?, InodeStoreInner.empty] at h,
      fun _ _ _ h => by simp [InodeStoreInner.get, InodeStoreInner.empty] at h,
      fun _ _ _ h => by simp [InodeStoreInner.get, InodeStoreInner.empty] at h⟩
  have hclaim : (InodeStoreInner.empty.claimInode (indexHandle root) root.ids).1 = .notFound := by
    cases hh : indexHandle root <;>
      simp [InodeStoreInner.claimInode, findInode, inodeByHandle, inodeByIds, InodeStoreInner.empty]
  have hroot : Indexed kind (InodeStoreInner.empty.insertNew ⟨root, 1, none⟩).2 :=
    hempty.insertNew hbacked hclaim rfl
  have hcell : (InodeStoreInner.empty.insertNew ⟨root, 1, none⟩).2.cells[0]? =
      some ⟨root, 1, none⟩ := rfl
  exact hroot.setCell hcell rfl fun _ => hpos

/-- **One FUSE inode id for each object of the host, at every moment.**  Any number of threads
claim, insert, forget and drop, in any order; the store starts with the root. -/
theorem one_id_per_host_object {root : InodeData} {refcount : Nat} (hbacked : root.BackedBy kind)
    (hpos : 0 < refcount)
    (hs : Relation.ReflTransGen (StoreStep kind) (rootStore root refcount) s) :
    OneIdPerObject s := by
  suffices h : Indexed kind s from h.oneIdPerObject
  induction hs with
  | refl => exact rootStore_indexed hbacked hpos
  | tail _ hstep ih => exact hstep.indexed ih

/-- The ids of a file that was deleted and of one that was made after it. -/
def reusedIds : InodeIds := ⟨7, 1, 1⟩

def reusedKind (ids : InodeIds) : Backing := if ids = reusedIds then .handle else .file

def reusedRoot : InodeData := ⟨ROOT_ID, .file 3, ⟨1, 1, 1⟩, 0⟩
def reusedOld : InodeData := ⟨2, .handle ⟨1, 1, [0]⟩, reusedIds, 0⟩
def reusedNew : InodeData := ⟨3, .handle ⟨1, 1, [1]⟩, reusedIds, 0⟩

/-- The deleted file is forgotten after the new one has been looked up, and takes their common
entry of `by_ids` with it. -/
def reusedStore : InodeStoreInner :=
  (((rootStore reusedRoot 2).getOrInsert reusedOld none).2.getOrInsert reusedNew none).2.forgetOne
    2 1

/-- The new file is still found by its handle. -/
theorem one_id_per_host_object_reused :
    reusedStore.inodeByIds reusedIds = none ∧ reusedStore.contains 3 = true ∧
      OneIdPerObject reusedStore := by
  have hroot : reusedRoot.BackedBy reusedKind := ⟨3, rfl⟩
  have hold : reusedOld.BackedBy reusedKind := ⟨_, rfl⟩
  have hnew : reusedNew.BackedBy reusedKind := ⟨_, rfl⟩
  have hsteps : Relation.ReflTransGen (StoreStep reusedKind) (rootStore reusedRoot 2) reusedStore :=
    ((Relation.ReflTransGen.single (.getOrInsert _ reusedOld none hold)).tail
      (.getOrInsert _ reusedNew none hnew)).tail (.forgetOne _ 2 1)
  exact ⟨by decide +kernel, by decide +kernel, one_id_per_host_object hroot Nat.two_pos hsteps⟩

end

end Virtiofsd
