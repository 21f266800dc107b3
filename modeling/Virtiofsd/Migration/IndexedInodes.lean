/-
  # The dentry index and the inode store

  The dentry index names inodes, and an inode leaves the store on four ways: the guest forgets
  it, the daemon drops its last strong reference to it, another inode that leaves the store had
  that reference in its migration info, or the store is cleared.  Only FORGET and BATCH_FORGET
  tell the index, and they do so AFTER the inode has left the store.  In the other direction a
  lookup enters its name after it has given the inode to the guest, who may have forgotten it by
  then.

  So between two actions the index may name inodes that are gone.  If no action is one of those
  that the index is not told about (`KeepsIndexed`), each of these inodes is one that a thread is
  about to take out of the index, and when all threads have ended there is none.  DESTROY is such
  an action: it leaves every name in the index.
-/
import Virtiofsd.Lib.Duties
import Virtiofsd.Migration.Allocation
import Virtiofsd.Passthrough.DentryIndex

namespace Virtiofsd

open Lib InodeStoreInner List

/-! ## 1. What leaves the store -/

namespace InodeStoreInner

variable {s : InodeStoreInner} {c : Inode}

/-- The last strong reference to an inode is dropped. -/
def DropsLast (c : Inode) (drops : List (InodeRef × InodeStoreInner)) : Prop :=
  ∃ x ∈ drops, x.1.data.inode = c ∧ x.2.contains c = true ∧ x.2.refcount c ≤ 1

theorem DropsLast.mono {drops drops' : List (InodeRef × InodeStoreInner)}
    (h : DropsLast c drops) (hsub : ∀ x ∈ drops, x ∈ drops') : DropsLast c drops' := by
  obtain ⟨x, hx, hrest⟩ := h
  exact ⟨x, hsub x hx, hrest⟩

/-- **What `forget_one` takes out of the store**: the inode itself, or one whose last strong
reference is dropped along with it. -/
theorem removed_of_forgetTraced : ∀ (fuel : Nat) (s : InodeStoreInner) (i : Inode) (count : Nat),
    s.Stored → s.contains c = true → (forgetTraced fuel s i count).1.contains c = false →
      (c = i ∧ s.refcount i ≤ count) ∨ DropsLast c (forgetTraced fuel s i count).2
  | 0, s, i, count, _, hin, hout => absurd (hout.symm.trans hin) nofun
  | fuel + 1, s, i, count, h, hin, hout => by
    have hkept : s.contains c ≠ false := by simp [hin]
    unfold forgetTraced at hout ⊢
    cases hl : s.data.lookup i with
    | none =>
      rw [hl] at hout
      exact absurd hout hkept
    | some a =>
      obtain ⟨cell, hcell, -⟩ := h i a hl
      simp only [hl, hcell] at hout ⊢
      split at hout
      · rename_i hzero
        rw [if_pos hzero]
        by_cases hci : c = i
        · refine .inl ⟨hci, ?_⟩
          rw [refcount_eq hl hcell]
          exact Nat.sub_eq_zero_iff_le.mp hzero
        · -- the inode itself is gone, and `c` still there
          have hstays : (s.removed a cell count).contains c = true := by
            rwa [contains, lookup_removed h hl hcell, if_neg hci]
          cases hparent : infoParent cell.migrationInfo with
          | none =>
            rw [hparent] at hout
            exact absurd (hout.symm.trans hstays) nofun
          | some parent =>
            rw [hparent] at hout
            dsimp only at hout ⊢
            right
            rcases removed_of_forgetTraced fuel _ _ 1 (h.removed hl hcell) hstays hout with
              ⟨rfl, hle⟩ | hdrop
            · exact ⟨(parent, _), mem_cons_self, rfl, hstays, hle⟩
            · exact hdrop.mono fun x hx => mem_cons_of_mem _ hx
      · exact absurd hout hkept

theorem removed_of_forgetOne {i : Inode} {count : Nat} (hwf : s.WellFormed)
    (hin : s.contains c = true) (hout : (s.forgetOne i count).contains c = false) :
    (c = i ∧ s.refcount i ≤ count) ∨ DropsLast c (s.forgetDrops i count) := by
  unfold forgetOne at hout
  rw [← forgetTraced_fst] at hout
  exact removed_of_forgetTraced _ s i count hwf.stored hin hout

/-- What leaves the store while references are dropped one after the other. -/
theorem removed_of_dropAll : ∀ (refs : List InodeRef) (s : InodeStoreInner), s.WellFormed →
    s.contains c = true →
      ((refs.map (·.data.inode)).foldl (fun s i => s.forgetOne i 1) s).contains c = false →
        DropsLast c (dropAll refs s)
  | [], s, _, hin, hout => by
    rw [map_nil, foldl_nil, hin] at hout
    cases hout
  | r :: refs, s, hwf, hin, hout => by
    rw [map_cons, foldl_cons] at hout
    cases hmid : (s.forgetOne r.data.inode 1).contains c with
    | true =>
      refine (removed_of_dropAll refs _ (hwf.edits (.forgetOne .refl _ 1)) hmid hout).mono
        fun x hx => ?_
      exact mem_cons_of_mem _ (mem_append_right _ hx)
    | false =>
      rcases removed_of_forgetOne hwf hin hmid with ⟨rfl, hle⟩ | hdrop
      · exact ⟨(r, s), mem_cons_self, rfl, hin, hle⟩
      · exact hdrop.mono fun x hx => mem_cons_of_mem _ (mem_append_left _ hx)

theorem contains_takeInfos : ∀ (is : List Inode) (s : InodeStoreInner),
    (takeInfos is s).2.contains c = s.contains c
  | [], _ => rfl
  | i :: is, s => by
    unfold takeInfos
    split
    · exact contains_takeInfos is s
    split
    · exact contains_takeInfos is s
    split
    · exact contains_takeInfos is s
    · exact contains_takeInfos is _

theorem removed_of_clearMigrationInfo (hwf : s.WellFormed) (hin : s.contains c = true)
    (hout : s.clearMigrationInfo.contains c = false) : DropsLast c s.clearDrops := by
  have hfold : s.clearMigrationInfo =
      ((takenRefs s.inodes s).map (·.data.inode)).foldl (fun s i => s.forgetOne i 1)
        (takeInfos s.inodes s).2 := by
    rw [← takeInfos_fst]
    rfl
  rw [hfold] at hout
  refine removed_of_dropAll _ _ (hwf.edits (.takeInfos s.inodes .refl)) ?_ hout
  rw [contains_takeInfos]
  exact hin

theorem removed_of_forgetMany : ∀ (l : List (Inode × Nat)) (s : InodeStoreInner), s.WellFormed →
    s.contains c = true → (s.forgetMany l).contains c = false →
      c ∈ l.map Prod.fst ∨ DropsLast c (SessionAct.drops.manyDrops l s)
  | [], s, _, hin, hout => by
    rw [forgetMany, foldl_nil, hin] at hout
    cases hout
  | (i, n) :: l, s, hwf, hin, hout => by
    cases hmid : (s.forgetOne i n).contains c with
    | true =>
      refine (removed_of_forgetMany l _ (hwf.edits (.forgetOne .refl i n)) hmid hout).imp
        (mem_cons_of_mem _) fun h => ?_
      exact h.mono fun x hx => mem_append_right _ hx
    | false =>
      rcases removed_of_forgetOne hwf hin hmid with ⟨rfl, -⟩ | hdrop
      · exact .inl mem_cons_self
      · exact .inr (hdrop.mono fun x hx => mem_append_left _ hx)

/-! The other operations take nothing out of the store. -/

theorem contains_incrementRefcount (r : InodeRef) :
    (s.incrementRefcount r).2.contains c = s.contains c := by
  unfold incrementRefcount
  split
  · split <;> rfl
  · rfl

theorem contains_claimInode (handle : Option FileHandle) (ids : InodeIds) :
    (s.claimInode handle ids).2.contains c = s.contains c := by
  unfold claimInode
  split
  · rename_i r _
    have h := contains_incrementRefcount (s := s) (c := c) r
    split <;> rename_i hr <;> rwa [hr] at h
  · rfl
  · rfl

theorem contains_insertNew {cell : Cell} (h : s.contains c = true) :
    (s.insertNew cell).2.contains c = true := by
  unfold contains insertNew at *
  by_cases hc : c = cell.data.inode
  · rw [hc]
    simp
  · dsimp only
    rwa [AList.lookup_insert_ne hc]

theorem contains_getOrInsert (d : InodeData) (info : Option InodeMigrationInfo)
    (h : s.contains c = true) : (s.getOrInsert d info).2.contains c = true := by
  have hclaim := contains_claimInode (s := s) (c := c) (indexHandle d) d.ids
  rw [h] at hclaim
  unfold getOrInsert
  split <;> rename_i hk <;> rw [hk] at hclaim
  · exact hclaim
  · exact hclaim
  · split
    · exact hclaim
    · exact contains_insertNew hclaim

theorem contains_exchangeInfo (r : InodeRef) (info : Option InodeMigrationInfo) :
    (s.exchangeInfo r info).2.contains c = s.contains c := by
  unfold exchangeInfo
  split <;> rfl

theorem contains_storeRefcount (r : InodeRef) (n : Nat) :
    (s.storeRefcount r n).contains c = s.contains c := by
  unfold storeRefcount
  split <;> rfl

theorem contains_iff_get (hwf : s.WellFormed) : s.contains c = true ↔ (s.get c).isSome = true := by
  unfold contains get
  cases hl : s.data.lookup c with
  | none => exact Iff.rfl
  | some a =>
    obtain ⟨cell, hcell, -⟩ := hwf.stored c a hl
    simp [hcell]

end InodeStoreInner

/-! ## 2. Duties to the index -/

/-- **What FORGET and BATCH_FORGET owe the index**: the inodes they forget.  An inode is in order
when it turns out to be in the store, or has been taken out of the index. -/
def indexDuties : Duties SessionAct SessionAct.Ans Inode where
  takes
    | .act (.ref (.forgetOne i _)) => {i}
    | .act (.ref (.forgetMany l)) => {i | i ∈ l.map Prod.fst}
    | _ => ∅
  settles
    | .act (.neutral (.query (.get i))), some _ => {i}
    | .act (.neutral (.query (.dentry (.forget i)))), _ => {i}
    | _, _ => ∅
  may
    | .act (.neutral (.query .hasDentryIndex)), r => r = true
    | _, _ => True

/-- A program that takes over no duty that it does not settle. -/
abbrev MindsIndex {α : Type} (p : SessionM α) : Prop := indexDuties.Minds p

theorem sessionAct_minds (a : SessionAct) (h : indexDuties.takes a = ∅) :
    MindsIndex (sessionAct a) :=
  Duties.Minds.perform h

theorem MindsIndex.compositional :
    Compositional fun {α : Type} (p : SessionM α) => MindsIndex p :=
  Duties.Minds.compositional

theorem query_minds (q : Query) : MindsIndex (liftM (query q) : SessionM q.Ans) :=
  sessionAct_minds (.act (.neutral (.query q))) rfl

/-- **The names of every inode are taken out of the index**, if the inode is gone. -/
theorem forgetDentries_settles {i : Inode} : ∀ {inodes : List Inode}, i ∈ inodes →
    indexDuties.WillSettle i (liftM (PassthroughFs.forgetDentries inodes) : SessionM Unit)
  | j :: inodes, hi => by
    rintro (_ | r) -
    · -- the inode is gone: the next action tells the index
      right
      intro _ _
      by_cases hij : i = j
      · subst hij
        exact .inl rfl
      · exact .inr (forgetDentries_settles (mem_of_ne_of_mem hij hi))
    · by_cases hij : i = j
      · subst hij
        exact .inl rfl
      · exact .inr (forgetDentries_settles (mem_of_ne_of_mem hij hi))

theorem forgetDentries_minds : ∀ inodes : List Inode,
    MindsIndex (liftM (PassthroughFs.forgetDentries inodes) : SessionM Unit)
  | [] => trivial
  | j :: inodes => by
    rintro (_ | r) -
    · refine ⟨fun t ht => ht.elim, fun _ _ => ⟨fun t ht => ht.elim, ?_⟩⟩
      exact forgetDentries_minds inodes
    · exact ⟨fun t ht => ht.elim, forgetDentries_minds inodes⟩

theorem forget_minds (inode : Inode) (count : Nat) :
    MindsIndex (liftM (PassthroughFs.forget inode count) : SessionM Unit) := by
  intro _ _
  refine ⟨fun t ht => .inr ?_, ?_⟩
  · rintro hasIndex rfl
    exact .inr (forgetDentries_settles (mem_singleton.mpr ht))
  · rintro hasIndex rfl
    exact ⟨fun t ht => ht.elim, forgetDentries_minds [inode]⟩

theorem batchForget_minds (requests : List (Inode × Nat)) :
    MindsIndex (liftM (PassthroughFs.batchForget requests) : SessionM Unit) := by
  rintro hasIndex rfl
  refine ⟨fun t ht => ht.elim, fun _ _ => ⟨fun t ht => .inr ?_, ?_⟩⟩
  · exact forgetDentries_settles ht
  · exact forgetDentries_minds _

theorem minds_parts : JobParts fun {α : Type} (p : FsM α) => MindsIndex (liftM p : SessionM α) where
  toOffIndexParts := by
    refine .of_actions (MindsIndex.compositional.comap SessionAct.act (fun _ r => r) id)
      (fun _ => trivial) (fun c _ => sessionAct_minds (.act (.neutral (.host c))) rfl)
      (fun q _ => query_minds q) (query_minds .fetchAddInode) (query_minds .fetchAddHandle)
      (fun handle data => query_minds (.insertHandle handle data)) (fun r hr => ?_)
      fun data info => sessionAct_minds (.act (.ref (.getOrInsert data info))) rfl
    refine sessionAct_minds (.act (.ref r)) ?_
    cases r <;> first | rfl | exact hr.elim
  transfer c := sessionAct_minds (.act (.neutral (.host c))) rfl
  dentry op := query_minds (.dentry op)
  forget := forget_minds
  batchForget := batchForget_minds

theorem minds_daemon : DaemonParts fun {α : Type} (p : SessionM α) => MindsIndex p where
  toCompositional := MindsIndex.compositional
  files := minds_parts.files
  store f v _ := query_minds (.store f v)
  clearHandles := query_minds .clearHandles
  clear := sessionAct_minds .clear rfl
  newRoot c _ _ := sessionAct_minds (.newInode c) rfl
  jobs := minds_parts
  track v := query_minds (.store .trackMigrationInfo v)

/-- A migrated state that is applied. -/
theorem apply_minds (cfg : Config) (state : SerializedFs) : MindsIndex (state.apply cfg) := by
  have h := MindsIndex.compositional
  have hn := minds_parts.neutral
  have hrestores : ∀ a, SessionAct.RestoresIds (fun _ => True) a → indexDuties.takes a = ∅ := by
    rintro ((n | r) | _) ha
    · rfl
    · cases r <;> first | rfl | exact ha.elim
    all_goals rfl
  have hopts : MindsIndex (liftM (state.negotiatedOpts.apply cfg) : SessionM Unit) := by
    have hcheck : ∀ {c : Prop} [Decidable c] {e : IoError} {p : NeutralM Unit},
        MindsIndex (liftM p : SessionM Unit) →
          MindsIndex (liftM (if c then (Prog.err e : NeutralM PUnit).bind fun _ => p else p) :
            SessionM Unit) := by
      intro c _ e p hp
      split
      · exact hn.err e
      · exact hp
    refine hcheck (hn.bind (query_minds (.store .writeback _)) fun _ => ?_)
    refine hcheck (hn.bind (query_minds (.store .announceSubmounts _)) fun _ => ?_)
    refine hcheck (hn.bind (query_minds (.store .posixAcl _)) fun _ => ?_)
    exact query_minds (.store .supGroupExtension _)
  have hinodes : MindsIndex (restoreInodes cfg state.mountPaths state.inodes) :=
    Duties.Minds.of_keeps hrestores (fun _ _ _ => trivial)
      (restoreInodes_entering (fun _ _ => trivial) cfg state.mountPaths)
  have hhandles : MindsIndex (liftM (restoreHandles cfg state.handles) : SessionM Unit) :=
    Duties.Minds.of_keeps hrestores (fun _ _ _ => trivial)
      (neutral_entering (restoreHandles_restoring cfg state.handles))
  refine h.bind hopts fun _ => h.bind hinodes fun _ => ?_
  refine h.bind (query_minds (.storeNextInode _)) fun _ => ?_
  refine h.bind (query_minds .clearHandles) fun _ => h.bind hhandles fun _ => ?_
  exact query_minds (.storeNextHandle _)

/-! ## 3. Runs -/

/-- What a thread of the daemon does, also at the destination of a migration.  The reset of the
device is `SessionJob.destroy`. -/
inductive DaemonJob where
  | session (job : SessionJob)
  | apply (state : SerializedFs)

def DaemonJob.prog (x : Export) (cfg : Config) : DaemonJob → SessionM (Option SerializedFs)
  | session job => job.prog x cfg
  | apply state => (state.apply cfg).bind fun _ => .ret none

def DaemonJob.OverChain : DaemonJob → Prop
  | session job => job.OverChain
  | apply _ => True

theorem DaemonJob.minds (x : Export) (cfg : Config) (job : DaemonJob) (hjob : job.OverChain) :
    MindsIndex (job.prog x cfg) := by
  cases job with
  | session job => exact minds_daemon.job x cfg job hjob
  | apply state => exact MindsIndex.compositional.bind (apply_minds cfg state) fun _ => trivial

/-- **The file system and its threads.** -/
structure ThreadedFs where
  fs : PassthroughFs
  threads : List (SessionM (Option SerializedFs))

/-- The inode has a name in the dentry index. -/
def PassthroughFs.Named (fs : PassthroughFs) (c : Inode) : Prop :=
  ∃ d, fs.dentryIndex = some d ∧ ∃ key, d.view key = some c

namespace ThreadedFs

variable {x : Export} {cfg : Config} {ok : PassthroughFs → SessionAct → Prop}

/-- **One step**: a thread starts, performs an action, or ends.  One that panics drops the
references it has, whichever they are.  `ok` restricts the actions. -/
inductive Step (x : Export) (cfg : Config) (ok : PassthroughFs → SessionAct → Prop) :
    ThreadedFs → ThreadedFs → Prop where
  | start {fs l} (job : DaemonJob) (hjob : job.OverChain) :
      Step x cfg ok ⟨fs, l⟩ ⟨fs, job.prog x cfg :: l⟩
  | act {fs fs' l₁ l₂} {a : SessionAct} {k : a.Ans → _} {r} (hok : ok fs a)
      (h : a.PerformShared fs r fs') :
      Step x cfg ok ⟨fs, l₁ ++ .act a k :: l₂⟩ ⟨fs', l₁ ++ k r :: l₂⟩
  | finish {fs l₁ l₂} {p : SessionM (Option SerializedFs)} (h : ∀ a k, p ≠ .act a k) :
      Step x cfg ok ⟨fs, l₁ ++ p :: l₂⟩ ⟨fs, l₁ ++ l₂⟩
  | unwind {fs l₁ l₂ q} (r : InodeRef) (hok : ok fs (.act (.ref (.dropRef r)))) :
      Step x cfg ok ⟨fs, l₁ ++ .panic q :: l₂⟩
        ⟨(PassthroughFs.reference (.dropRef r) fs).2, l₁ ++ .panic q :: l₂⟩

/-- The states that a daemon reaches, with a dentry index or without one. -/
inductive Reached (x : Export) (cfg : Config) (ok : PassthroughFs → SessionAct → Prop) :
    ThreadedFs → Prop where
  | start (guestFdLimit : Nat) (dentryIndex : Bool) :
      Reached x cfg ok ⟨PassthroughFs.initial guestFdLimit dentryIndex, []⟩
  | step {σ σ' : ThreadedFs} (h : Reached x cfg ok σ) (hstep : Step x cfg ok σ σ') :
      Reached x cfg ok σ'

/-- **The condition on an action**: a name is entered while its inode is in the store, no strong
reference that is dropped is the last one to an inode with a name, and the store is not cleared
while there are names. -/
structure KeepsIndexed (fs : PassthroughFs) (a : SessionAct) : Prop where
  insert : ∀ parent name c, a = .act (.neutral (.query (.dentry (.insert parent name c)))) →
    fs.inodes.contains c = true
  drop : ∀ c, fs.Named c → ¬ DropsLast c (a.drops fs.inodes)
  clear : a = .clear → ∀ c, ¬ fs.Named c

/-! ## 4. One action -/

/-- The inode has a name, and is gone. -/
def Owed (fs : PassthroughFs) (c : Inode) : Prop := fs.Named c ∧ fs.inodes.contains c = false

/-- What the daemon keeps, besides the duties of its threads. -/
structure Sound (fs : PassthroughFs) : Prop where
  wellFormed : fs.inodes.WellFormed
  consistent : ∀ d, fs.dentryIndex = some d → d.Consistent

section Action

variable {fs fs' : PassthroughFs} {a : SessionAct} {r : a.Ans} {c : Inode}

/-- **What leaves the store by an action.** -/
theorem removed_of_performShared (hwf : fs.inodes.WellFormed) (h : a.PerformShared fs r fs')
    (hin : fs.inodes.contains c = true) (hout : fs'.inodes.contains c = false) :
    c ∈ indexDuties.takes a ∨ a = .clear ∨ DropsLast c (a.drops fs.inodes) := by
  have hkept : ∀ {s : InodeStoreInner}, fs'.inodes = s → s.contains c = true → False := by
    rintro s rfl hs
    rw [hs] at hout
    cases hout
  cases a with
  | clear => exact .inr (.inl rfl)
  | newInode cell =>
    simp only [SessionAct.PerformShared, InodeStoreInner.newInode] at h
    split at h
    · rename_i s hs
      split at hs
      · cases hs
      · cases hs
        exact (hkept (by rw [h.2]; rfl) (contains_insertNew hin)).elim
    · exact (hkept (by rw [h.2]) hin).elim
  | storeRefcount ref n =>
    exact (hkept (by rw [show fs' = _ from h]; rfl)
      ((contains_storeRefcount ref n).trans hin)).elim
  | act a =>
    rcases a with (call | q) | ref
    · exact (hkept (congrArg _ h) hin).elim
    · have hs := PassthroughFs.answer_inodes q fs
      rw [show PassthroughFs.answer q fs = (r, fs') from h] at hs
      exact (hkept hs hin).elim
    · have hfs : (PassthroughFs.reference ref fs).2 = fs' := congrArg Prod.snd h
      subst hfs
      cases ref with
      | increment ref => exact (hkept rfl ((contains_incrementRefcount ref).trans hin)).elim
      | claim handle ids => exact (hkept rfl ((contains_claimInode handle ids).trans hin)).elim
      | getOrInsert d info => exact (hkept rfl (contains_getOrInsert d info hin)).elim
      | leak | adopt => exact (hkept rfl hin).elim
      | exchangeInfo ref info => exact (hkept rfl ((contains_exchangeInfo ref info).trans hin)).elim
      | dropRef ref => exact .inr (.inr (removed_of_dropAll [ref] _ hwf hin hout))
      | forgetOne i n =>
        rcases removed_of_forgetOne hwf hin hout with ⟨rfl, -⟩ | hdrop
        · exact .inl rfl
        · exact .inr (.inr hdrop)
      | forgetMany l => exact (removed_of_forgetMany l _ hwf hin hout).imp id .inr
      | clearMigrationInfo => exact .inr (.inr (removed_of_clearMigrationInfo hwf hin hout))

/-- Only an operation on the index changes it, and it leaves the store alone. -/
theorem index_of_performShared (h : a.PerformShared fs r fs') :
    fs'.dentryIndex = fs.dentryIndex ∨
      ∃ op, a = .act (.neutral (.query (.dentry op))) ∧ fs'.inodes = fs.inodes ∧
        fs'.dentryIndex = fs.dentryIndex.map (·.apply op) := by
  cases a with
  | clear | storeRefcount =>
    obtain rfl := h
    exact .inl rfl
  | newInode cell =>
    simp only [SessionAct.PerformShared] at h
    split at h
    · rw [h.2]
      exact .inl rfl
    · rw [h.2]
      exact .inl rfl
  | act a =>
    rcases a with (call | q) | ref
    · obtain rfl := h
      exact .inl rfl
    · have hfs : (PassthroughFs.answer q fs).2 = fs' := congrArg Prod.snd h
      subst hfs
      cases q with
      | dentry op => exact .inr ⟨op, rfl, rfl, by cases op <;> rfl⟩
      | allocateFd =>
        simp only [PassthroughFs.answer]
        split <;> exact .inl rfl
      | removeHandle handle inode =>
        simp only [PassthroughFs.answer]
        split
        · split <;> exact .inl rfl
        · exact .inl rfl
      | _ => exact .inl rfl
    · have hfs : (PassthroughFs.reference ref fs).2 = fs' := congrArg Prod.snd h
      subst hfs
      cases ref <;> exact .inl rfl

/-- The names after an operation were there before, or are entered by it. -/
theorem view_of_apply {d : DentryIndex} (hd : d.Consistent) {op : DentryOp} {key : Inode × Name}
    (h : (d.apply op).view key = some c) :
    (∃ key, d.view key = some c) ∨ ∃ parent name, op = .insert parent name c := by
  cases op with
  | insert parent nm child =>
    rw [show d.apply (.insert parent nm child) = d.insert parent nm child from rfl,
      DentryIndex.view_insert] at h
    by_cases hkey : key = (parent, nm)
    · rw [hkey, Function.update_self] at h
      cases h
      exact .inr ⟨parent, nm, rfl⟩
    · rw [Function.update_of_ne hkey] at h
      exact .inl ⟨key, h⟩
  | remove parent nm =>
    rw [show d.apply (.remove parent nm) = d.remove parent nm from rfl,
      DentryIndex.view_remove] at h
    by_cases hkey : key = (parent, nm)
    · rw [hkey, Function.update_self] at h
      cases h
    · rw [Function.update_of_ne hkey] at h
      exact .inl ⟨key, h⟩
  | rename oldParent oldName newParent newName =>
    rw [show d.apply (.rename oldParent oldName newParent newName) =
      d.rename oldParent oldName newParent newName from rfl, DentryIndex.view_rename,
      DentryIndex.movedView] at h
    by_cases hnew : key = (newParent, newName)
    · rw [hnew, Function.update_self] at h
      split at h
      · cases h
      · exact .inl ⟨_, h⟩
    · rw [Function.update_of_ne hnew] at h
      by_cases hold : key = (oldParent, oldName)
      · rw [hold, Function.update_self] at h
        cases h
      · rw [Function.update_of_ne hold] at h
        exact .inl ⟨key, h⟩
  | forget inode =>
    rw [show d.apply (.forget inode) = d.forgetInode inode from rfl, hd.view_forgetInode] at h
    dsimp only at h
    split at h
    · cases h
    · exact .inl ⟨key, h⟩

/-- The names after an action. -/
theorem named_of_performShared (hsound : Sound fs) (h : a.PerformShared fs r fs')
    (hc : fs'.Named c) : fs.Named c ∨
      ∃ parent name, a = .act (.neutral (.query (.dentry (.insert parent name c)))) := by
  obtain ⟨d', hd', key, hkey⟩ := hc
  rcases index_of_performShared h with hsame | ⟨op, rfl, -, hmap⟩
  · exact .inl ⟨d', hsame ▸ hd', key, hkey⟩
  · rw [hmap] at hd'
    obtain ⟨d, hd, rfl⟩ := Option.map_eq_some_iff.mp hd'
    rcases view_of_apply (hsound.consistent d hd) hkey with hkey | ⟨parent, name, rfl⟩
    · exact .inl ⟨d, hd, hkey⟩
    · exact .inr ⟨parent, name, rfl⟩

/-- **What is owed after an action** that the condition allows. -/
theorem owed_of_performShared (hsound : Sound fs) (hok : KeepsIndexed fs a)
    (h : a.PerformShared fs r fs') (hc : Owed fs' c) : Owed fs c ∨ c ∈ indexDuties.takes a := by
  obtain ⟨hnamed, hout⟩ := hc
  rcases named_of_performShared hsound h hnamed with hnamed | ⟨parent, name, rfl⟩
  · cases hin : fs.inodes.contains c with
    | false => exact .inl ⟨hnamed, hin⟩
    | true =>
      rcases removed_of_performShared hsound.wellFormed h hin hout with htakes | rfl | hdrop
      · exact .inr htakes
      · exact absurd hnamed (hok.clear rfl c)
      · exact absurd hdrop (hok.drop c hnamed)
  · -- the inode of a name that is entered is in the store, and stays there
    have hin := hok.insert parent name c rfl
    obtain rfl : fs.dentry (.insert parent name c) = fs' := congrArg Prod.snd h
    cases hin.symm.trans hout

/-- **What an action settles is not owed.** -/
theorem settled_of_performShared (hsound : Sound fs) (h : a.PerformShared fs r fs')
    (hc : c ∈ indexDuties.settles a r) : ¬ Owed fs' c := by
  rintro ⟨⟨d', hd', key, hkey⟩, hout⟩
  cases a with
  | act a =>
    rcases a with (call | q) | ref
    · exact hc.elim
    · have hanswer : PassthroughFs.answer q fs = (r, fs') := h
      cases q with
      | get i =>
        cases r with
        | none => exact hc.elim
        | some ref =>
          obtain rfl : c = i := hc
          have hget : fs.inodes.get c = some ref := congrArg Prod.fst hanswer
          obtain rfl : fs = fs' := congrArg Prod.snd hanswer
          rw [(contains_iff_get hsound.wellFormed).mpr (by rw [hget]; rfl)] at hout
          cases hout
      | dentry op =>
        cases op with
        | forget i =>
          obtain rfl : c = i := hc
          obtain rfl : fs.dentry (.forget c) = fs' := congrArg Prod.snd hanswer
          obtain ⟨d, hd, rfl⟩ := Option.map_eq_some_iff.mp hd'
          rw [(hsound.consistent d hd).view_forgetInode] at hkey
          dsimp only at hkey
          split at hkey
          · cases hkey
          · rename_i hne
            exact hne hkey
        | _ => exact hc.elim
      | _ => exact hc.elim
    · exact hc.elim
  | _ => exact hc.elim

/-- One action keeps the maps of the store and of the index. -/
theorem Sound.performShared (hsound : Sound fs) (h : a.PerformShared fs r fs') : Sound fs' := by
  refine ⟨h.wellFormed hsound.wellFormed, fun d' hd' => ?_⟩
  rcases index_of_performShared h with hsame | ⟨op, -, -, hmap⟩
  · exact hsound.consistent d' (hsame ▸ hd')
  · rw [hmap] at hd'
    obtain ⟨d, hd, rfl⟩ := Option.map_eq_some_iff.mp hd'
    exact (hsound.consistent d hd).apply op

end Action

/-! ## 5. Whole runs -/

/-- **What every run keeps**, if there is an index: what is named and gone is about to be taken
out of the index by some thread. -/
structure Tidy (σ : ThreadedFs) : Prop where
  sound : Sound σ.fs
  covered : σ.fs.dentryIndex.isSome = true → indexDuties.Covered (Owed σ.fs) σ.threads

/-- There is an index, or there is none. -/
theorem isSome_of_performShared {fs fs' : PassthroughFs} {a : SessionAct} {r : a.Ans}
    (h : a.PerformShared fs r fs') : fs'.dentryIndex.isSome = fs.dentryIndex.isSome := by
  rcases index_of_performShared h with hsame | ⟨op, -, -, hmap⟩
  · rw [hsame]
  · rw [hmap, Option.isSome_map]

variable {σ σ' : ThreadedFs}

/-- **One step.** -/
theorem Tidy.step (h : σ.Tidy) (hstep : Step x cfg KeepsIndexed σ σ') : σ'.Tidy := by
  cases hstep with
  | start job hjob =>
    exact ⟨h.sound, fun hindex => (h.covered hindex).start (job.minds x cfg hjob)⟩
  | @act fs fs' l₁ l₂ a k r hok hperform =>
    refine ⟨h.sound.performShared hperform, fun hindex => ?_⟩
    have hindex₀ : fs.dentryIndex.isSome = true := isSome_of_performShared hperform ▸ hindex
    refine (h.covered hindex₀).act ?_ fun c hc => ⟨?_, fun hsettled => ?_⟩
    · -- with an index, `hasDentryIndex` says so
      unfold indexDuties
      dsimp only
      split
      · exact (congrArg Prod.fst hperform).symm.trans hindex₀
      · trivial
    · exact owed_of_performShared h.sound hok hperform hc
    · exact settled_of_performShared h.sound hperform hsettled hc
  | finish hend => exact ⟨h.sound, fun hindex => (h.covered hindex).finish hend⟩
  | @unwind fs l₁ l₂ q r hok =>
    have hperform : SessionAct.PerformShared (.act (.ref (.dropRef r))) fs ()
        (PassthroughFs.reference (.dropRef r) fs).2 := rfl
    refine ⟨h.sound.performShared hperform, fun hindex => (h.covered hindex).mono fun c hc => ?_⟩
    exact (owed_of_performShared h.sound hok hperform hc).resolve_right id

theorem Reached.tidy (h : Reached x cfg KeepsIndexed σ) : σ.Tidy := by
  induction h with
  | start guestFdLimit dentryIndex =>
    have hempty : ∀ d, (PassthroughFs.initial guestFdLimit dentryIndex).dentryIndex = some d →
        d = .empty := by
      intro d hd
      cases dentryIndex with
      | true => exact (Option.some.inj hd).symm
      | false => cases hd
    refine ⟨⟨.empty, fun d hd => hempty d hd ▸ .empty⟩, fun _ => ⟨?_, ?_⟩⟩
    · rintro c ⟨⟨d, hd, key, hkey⟩, -⟩
      rw [hempty d hd] at hkey
      cases hkey
    · exact fun p hp => absurd hp not_mem_nil
  | step _ hstep ih => exact ih.step hstep

/-- **The index does not outlive the store**: in every run of actions that meet the condition,
when all threads have ended, each inode in the index is in the store. -/
theorem index_within_store (h : Reached x cfg KeepsIndexed σ) (hidle : σ.threads = [])
    (d : DentryIndex) (hd : σ.fs.dentryIndex = some d) :
    (∀ parent name c, d.get parent name = some c → σ.fs.inodes.contains c = true) ∧
      ∀ c ∈ d.allInodes, σ.fs.inodes.contains c = true := by
  have htidy := h.tidy
  have hcovered := htidy.covered (by rw [hd]; rfl)
  rw [hidle] at hcovered
  have hget : ∀ parent name c, d.get parent name = some c → σ.fs.inodes.contains c = true := by
    intro parent name c hc
    by_contra hout
    exact hcovered.nothing c ⟨⟨d, hd, _, hc⟩, Bool.eq_false_iff.mpr hout⟩
  refine ⟨hget, fun c hc => ?_⟩
  obtain ⟨parent, name, hc⟩ := (htidy.sound.consistent d hd).mem_allInodes.mp hc
  exact hget parent name c hc

/-! ## 6. DESTROY -/

variable {check : PassthroughFs → SessionAct → Bool} {fs fs' : PassthroughFs}

/-- What an action does on an obliging host, and whether all actions so far have passed a check. -/
def performChecked (check : PassthroughFs → SessionAct → Bool) (a : SessionAct)
    (s : PassthroughFs × Bool) : a.Ans × (PassthroughFs × Bool) :=
  ((Drawing.answer a s.1).1, (Drawing.answer a s.1).2, s.2 && check s.1 a)

/-- **One job after the other.** -/
theorem reached_job (hcheck : ∀ fs a, check fs a = true → ok fs a) (job : DaemonJob)
    (hjob : job.OverChain) {n : Nat} {a : Option SerializedFs} (h : Reached x cfg ok ⟨fs, []⟩)
    (hr : (job.prog x cfg).advance (performChecked check) n (fs, true) = (.ret a, fs', true)) :
    Reached x cfg ok ⟨fs', []⟩ := by
  have hran := Prog.advance_keeps (performChecked check)
    (I := fun p s => s.2 = true → Reached x cfg ok ⟨s.1, [p]⟩) (fun a k s hs hpass => ?_) n hr
    (fun _ => h.step (.start job hjob)) rfl
  have hend : Step x cfg ok ⟨fs', [.ret a]⟩ ⟨fs', []⟩ :=
    @Step.finish x cfg ok _ [] [] _ fun _ _ h => nomatch h
  · exact hran.step hend
  · obtain ⟨hbefore, hpass⟩ := Bool.and_eq_true_iff.mp hpass
    exact (hs hbefore).step (@Step.act x cfg ok _ _ [] [] _ _ _ (hcheck _ a hpass)
      (Drawing.answer_shared a s.1))

/-- LOOKUP of `a` in the root directory. -/
def lookupA : DaemonJob := .session (.request (.lookup ROOT_ID [0x61]))

/-- The names that are left after a session. -/
def leftNames : DentryIndex := DentryIndex.empty.insert ROOT_ID [0x61] 2

/-- **DESTROY empties the store and leaves the index as it is.** -/
theorem index_outlives_store : ∃ σ d c,
    Reached .readWrite Config.default (fun _ _ => True) σ ∧ σ.threads = [] ∧
      σ.fs.dentryIndex = some d ∧ d.get ROOT_ID [0x61] = some c ∧ c ∈ d.allInodes ∧
        σ.fs.inodes.contains c = false := by
  have hany : ∀ (fs : PassthroughFs) (a : SessionAct), true = true → True := fun _ _ _ => trivial
  have hstart : Reached .readWrite Config.default (fun _ _ => True)
      ⟨PassthroughFs.initial 9 true, []⟩ := .start 9 true
  have hinit := reached_job (n := 30) hany (.session (.init 0)) trivial hstart rfl
  have hlookup := reached_job (n := 30) hany lookupA trivial hinit rfl
  have hdestroy := reached_job (n := 30) hany (.session .destroy) trivial hlookup rfl
  exact ⟨_, leftNames, 2, hdestroy, rfl, rfl, by decide, by decide, rfl⟩

/-- Actions that meet the condition: nothing is dropped or cleared while there are names. -/
def careful (fs : PassthroughFs) : SessionAct → Bool
  | .act (.neutral (.query (.dentry (.insert _ _ c)))) => fs.inodes.contains c
  | .act (.neutral _) => true
  | _ => fs.dentryIndex.all fun d => d.forward.keys.isEmpty

theorem keepsIndexed_of_careful (fs : PassthroughFs) (a : SessionAct) (h : careful fs a = true) :
    KeepsIndexed fs a := by
  have hneutral : ∀ n, a = .act (.neutral n) → ∀ c, ¬ DropsLast c (a.drops fs.inodes) := by
    rintro n rfl c ⟨x, hx, -⟩
    exact absurd hx not_mem_nil
  have hunnamed : (∀ n, a ≠ .act (.neutral n)) → ∀ c, ¬ fs.Named c := by
    rintro hn c ⟨d, hd, key, hkey⟩
    have hall : (fs.dentryIndex.all fun d => d.forward.keys.isEmpty) = true := by
      unfold careful at h
      split at h
      · exact absurd rfl (hn _)
      · exact absurd rfl (hn _)
      · exact h
    rw [hd] at hall
    have hmem : key ∈ d.forward := AList.lookup_isSome.mp (by
      rw [show d.forward.lookup key = some c from hkey]
      rfl)
    rw [AList.mem_keys, isEmpty_iff.mp hall] at hmem
    exact not_mem_nil hmem
  refine ⟨?_, fun c hnamed => ?_, ?_⟩
  · rintro parent name c rfl
    exact h
  · by_cases hn : ∃ n, a = .act (.neutral n)
    · obtain ⟨n, hn⟩ := hn
      exact hneutral n hn c
    · exact absurd hnamed (hunnamed (fun n hn' => hn ⟨n, hn'⟩) c)
  · rintro rfl
    exact hunnamed nofun

/-- INIT and LOOKUP: the index has the inode, and so has the store. -/
theorem index_within_store_lookup : ∃ σ : ThreadedFs,
    Reached .readWrite Config.default KeepsIndexed σ ∧ σ.fs.dentryIndex = some leftNames ∧
      ∀ c ∈ leftNames.allInodes, σ.fs.inodes.contains c = true := by
  have hstart : Reached .readWrite Config.default KeepsIndexed
      ⟨PassthroughFs.initial 9 true, []⟩ := .start 9 true
  have hinit := reached_job (n := 30) keepsIndexed_of_careful (.session (.init 0)) trivial hstart
    rfl
  have hlookup := reached_job (n := 30) keepsIndexed_of_careful lookupA trivial hinit rfl
  exact ⟨_, hlookup, rfl, (index_within_store hlookup rfl leftNames rfl).2⟩

end ThreadedFs

end Virtiofsd
