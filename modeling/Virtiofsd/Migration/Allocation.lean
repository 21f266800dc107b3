/-
  # Runs of the daemon that draw ids

  The daemon serves requests on several threads, it is initialized and destroyed, and it
  prepares and serializes a migration, all at the same time; `Allocating` counts the ids that
  are drawn on the way.  A daemon starts with nothing, or with a state that it was sent
  (`Origin`), and the one that sent it started so too.

  As long as the two counters do not wrap around, the state that is sent has only ids below
  its counters, and no id is drawn that is in use.  The counters start where those of the
  source were, so they wrap around after FEWER than 2^64 ids: a handle that is open all the time
  is then overwritten.
-/
import Virtiofsd.Migration.FreshIds
import Virtiofsd.Migration.Sessions

namespace Virtiofsd

open Lib InodeStoreInner List PassthroughFs Prog

variable {α β : Type} {x : Export} {cfg : Config}

/-! ## 1. What runs -/

/-- The threads over the shared file system, each with the ids it knows. -/
abbrev IdThreads :=
  Pool SessionAct SessionAct.Ans IoError PanicSite (Option SerializedFs) PassthroughFs IdToken

/-- **The daemon, and how many ids were drawn.** -/
structure Allocating where
  pool : IdThreads
  inodes : Nat
  handles : Nat

namespace Allocating

/-- **One step**: a thread starts, performs an action, or ends.  One that panics drops the
references it has, whichever they are. -/
inductive Step (x : Export) (cfg : Config) : Allocating → Allocating → Prop where
  | start {fs l m n} (job : SessionJob) (hjob : job.OverChain) :
      Step x cfg ⟨⟨fs, l⟩, m, n⟩ ⟨⟨fs, (job.prog x cfg, 0) :: l⟩, m, n⟩
  | act {fs fs' l₁ l₂ τ m n} {a : SessionAct} {k : a.Ans → _} {r} (h : a.PerformShared fs r fs') :
      Step x cfg ⟨⟨fs, l₁ ++ (.act a k, τ) :: l₂⟩, m, n⟩
        ⟨⟨fs', l₁ ++ (k r, idTokens.after a r τ) :: l₂⟩, m + a.drawnInodes, n + a.drawnHandles⟩
  | finish {fs l₁ l₂ τ m n} {p : SessionM (Option SerializedFs)} (h : ∀ a k, p ≠ .act a k) :
      Step x cfg ⟨⟨fs, l₁ ++ (p, τ) :: l₂⟩, m, n⟩ ⟨⟨fs, l₁ ++ l₂⟩, m, n⟩
  | unwind {fs l₁ l₂ q τ m n} (r : InodeRef) :
      Step x cfg ⟨⟨fs, l₁ ++ (.panic q, τ) :: l₂⟩, m, n⟩
        ⟨⟨(reference (.dropRef r) fs).2, l₁ ++ (.panic q, τ) :: l₂⟩, m, n⟩

/-- **The runs of a daemon** that starts with `fs`. -/
inductive Run (x : Export) (cfg : Config) (fs : PassthroughFs) : Allocating → Prop where
  | start : Run x cfg fs ⟨⟨fs, []⟩, 0, 0⟩
  | step {s s' : Allocating} (h : Run x cfg fs s) (hstep : Step x cfg s s') : Run x cfg fs s'

/-- A thread has read the state to be sent. -/
def Sends (s : Allocating) (state : SerializedFs) : Prop :=
  ∃ τ, (.ret (some state), τ) ∈ s.pool.threads

/-- The counters have not wrapped around. -/
def NoWrap (fs : PassthroughFs) (s : Allocating) : Prop :=
  fs.nextInode + s.inodes < 2 ^ 64 ∧ fs.nextHandle + s.handles < 2 ^ 64

end Allocating

/-- **What a daemon starts with**: nothing, or a state that another daemon has sent and that it
has applied. -/
inductive Origin : PassthroughFs → Prop where
  | new (guestFdLimit : Nat) (dentryIndex : Bool) :
      Origin (initial guestFdLimit dentryIndex)
  | migrated {x : Export} {cfg : Config} {fs : PassthroughFs} {s : Allocating}
      {state : SerializedFs} (hfs : Origin fs) (hrun : Allocating.Run x cfg fs s)
      (hwrap : s.NoWrap fs) (hsends : s.Sends state) {cfg' : Config} {w w' : World}
      (happly : (state.apply cfg').run World.performSession w = (.ok (), w')) : Origin w'.fs

/-! ## 2. The jobs keep to their ids -/

/-- A program keeps to the ids it knows, and forgets none. -/
abbrev Allocates (p : SessionM α) : Prop := Moves idTokens.toSpec (· ≤ ·) p

theorem Allocates.compositional : Compositional fun {α : Type} (p : SessionM α) => Allocates p :=
  Moves.compositional (fun _ => le_refl _) fun h h' => le_trans h h'

/-- An action that needs no id. -/
theorem sessionAct_allocates (a : SessionAct) (h : idTokens.use a = 0) :
    Allocates (sessionAct a) := by
  intro τ
  refine ⟨TokenSpec.use_le h, ?_⟩
  rintro r τ' ⟨-, rfl⟩
  rw [TokenSpec.after_of_use h]
  exact Multiset.le_add_right _ _

/-- A program that uses up the tokens `u` of its caller. -/
def Consumes (u : Multiset IdToken) (p : SessionM α) : Prop :=
  ∀ τ, u ≤ τ → p.wp idTokens.toSpec (fun _ τ' => τ - u ≤ τ') τ

variable {u : Multiset IdToken}

/-- Before it uses them, it has them. -/
theorem Consumes.after {p : SessionM β} {k : β → SessionM α} (hp : Allocates p)
    (hk : ∀ b, Consumes u (k b)) : Consumes u (p.bind k) := by
  intro τ hu
  have hle : ∀ {τ'}, τ ≤ τ' → τ - u ≤ τ' := le_trans (Multiset.sub_le_self _ _)
  refine wp_bind_of (hp τ) (fun b τ₁ h₁ => ?_) (fun _ _ h => hle h) fun _ _ h => hle h
  refine wp_mono (fun _ τ₂ h₂ => ?_) _ (hk b τ₁ (le_trans hu h₁))
  exact le_trans (tsub_le_tsub_right h₁ u) h₂

variable {a : SessionAct}

/-- The action that uses them. -/
theorem Consumes.act {k : a.Ans → SessionM α} (h : idTokens.use a = u) (hk : ∀ r, Allocates (k r)) :
    Consumes u ((sessionAct a).bind k) := by
  intro τ hu
  have huse : idTokens.use a ≤ τ := h ▸ hu
  refine ⟨huse, ?_⟩
  rintro r _ ⟨-, rfl⟩
  refine wp_mono (fun _ τ₁ h₁ => ?_) _ (hk r _)
  rw [TokenSpec.after, h] at h₁
  exact le_trans (Multiset.le_add_right _ _) h₁

/-- **An id that is drawn, and used up by the rest.** -/
theorem draw_allocates {k : a.Ans → SessionM α} (h : idTokens.use a = 0)
    (hk : ∀ r, Consumes (idTokens.give a r) (k r)) : Allocates ((sessionAct a).bind k) := by
  intro τ
  refine ⟨TokenSpec.use_le h, ?_⟩
  rintro r _ ⟨-, rfl⟩
  rw [TokenSpec.after_of_use h]
  refine wp_mono (fun _ τ₁ h₁ => ?_) _ (hk r _ (Multiset.le_add_left _ _))
  rwa [add_tsub_cancel_right] at h₁

theorem query_allocates (q : Query) (hq : q.Ordinary) :
    Allocates (liftM (query q) : SessionM q.Ans) := by
  refine sessionAct_allocates (.act (.neutral (.query q))) ?_
  cases q <;> first | rfl | exact hq.elim

theorem refAct_allocates (r : RefAct) (hr : r.Ordinary) :
    Allocates (liftM (refAct r) : SessionM r.Ans) := by
  refine sessionAct_allocates (.act (.ref r)) ?_
  cases r <;> first | rfl | exact hr.elim

theorem allocateFd_allocates : Allocates (liftM allocateFd : SessionM Unit) := by
  unfold allocateFd
  simp only [bind_eq, session_bind]
  refine Allocates.compositional.bind (query_allocates .allocateFd trivial) fun ok => ?_
  cases ok with
  | true => exact Allocates.compositional.ret ()
  | false => exact Allocates.compositional.err _

variable (f : FileOrHandle)

theorem dropFile_allocates : Allocates (liftM (dropFile f) : SessionM Unit) := by
  cases f with
  | file fd => exact query_allocates .releaseFd trivial
  | handle | invalid => exact Allocates.compositional.ret ()

/-- What is left of an inode that is not put into the store. -/
theorem dropData_allocates (info : Option InodeMigrationInfo) {p : FsM α}
    (hp : Allocates (liftM p : SessionM α)) :
    Allocates (liftM ((liftM (dropFile f) : FsM Unit).bind fun _ =>
      (dropInfo info).bind fun _ => p) : SessionM α) := by
  have hinfo : Allocates (liftM (dropInfo info) : SessionM Unit) := by
    unfold dropInfo
    cases infoParent info with
    | some r => exact refAct_allocates (.dropRef r) trivial
    | none => exact Allocates.compositional.ret ()
  have hlift := Allocates.compositional.comap SessionAct.act (fun _ r => r) id
  exact hlift.bind (dropFile_allocates f) fun _ => hlift.bind hinfo fun _ => hp

theorem newHandle_allocates (inode : Inode) (fd : Fd) (type : Nat) (flags : UInt32) :
    Allocates (liftM (newHandle inode fd type flags) : SessionM Handle) := by
  unfold newHandle
  simp only [bind_eq, session_bind]
  refine draw_allocates rfl fun handle => .after allocateFd_allocates fun _ => ?_
  exact .act rfl fun _ => Allocates.compositional.ret handle

theorem drawInode_allocates (ids : InodeIds) (mode : Nat) (info : Option InodeMigrationInfo) :
    Allocates (liftM (drawInode f ids mode info) : SessionM InodeRef) := by
  refine draw_allocates (a := .act (.neutral (.query .fetchAddInode))) rfl fun inode => ?_
  refine .act (a := .act (.ref (.getOrInsert ⟨inode, f, ids, mode⟩ info))) rfl fun result => ?_
  cases result with
  | inserted r => exact Allocates.compositional.ret r
  | found r => exact dropData_allocates f info (Allocates.compositional.ret r)
  | doubleUse => exact dropData_allocates f info (Allocates.compositional.err _)
  | dangling => exact fun τ => le_refl τ

/-- **All jobs keep to their ids.** -/
theorem allocates_parts :
    JobParts fun {α : Type} (p : FsM α) => Allocates (liftM p : SessionM α) := by
  have hhost : ∀ c, Allocates (liftM (liftM (host c) : FsM c.Ans) : SessionM c.Ans) :=
    fun c => sessionAct_allocates (.act (.neutral (.host c))) rfl
  refine OffIndexParts.jobs ?_ hhost (fun op => query_allocates (.dentry op) trivial)
    (fun i n => sessionAct_allocates (.act (.ref (.forgetOne i n))) rfl)
    fun l => sessionAct_allocates (.act (.ref (.forgetMany l))) rfl
  exact {
    toCompositional := Allocates.compositional.comap SessionAct.act (fun _ r => r) id
    panic := fun _ τ => le_refl τ
    host := fun c _ => hhost c
    query := fun q hq => query_allocates q hq.ordinary
    refAct := refAct_allocates
    newHandle := newHandle_allocates
    drawInode := drawInode_allocates }

/-! ## 3. Reading the state -/

/-- What a program finds out that does not touch a reference: from tokens with `P`, a value
and tokens with `Q`. -/
def Reads (P : Multiset IdToken → Prop) (p : NeutralM α) (Q : α → Multiset IdToken → Prop) : Prop :=
  ∀ τ, P τ → (liftM p : SessionM α).wp idTokens.toSpec
    (fun o τ' => match o with
      | .ok a => Q a τ'
      | _ => True) τ

namespace Reads

variable {P : Multiset IdToken → Prop} {Q : α → Multiset IdToken → Prop}
  {R : β → Multiset IdToken → Prop} {p : NeutralM α} {k : α → NeutralM β}

theorem ret {a : α} (h : ∀ τ, P τ → Q a τ) : Reads P (.ret a) Q := h

theorem bind (hp : Reads P p Q) (hk : ∀ a, Reads (Q a) (k a) R) : Reads P (p.bind k) R := by
  intro τ hτ
  rw [session_bind]
  exact wp_bind_of (hp τ hτ) (fun a τ' h => hk a τ' h) (fun _ _ h => h) fun _ _ h => h

theorem mono {P' : Multiset IdToken → Prop} {Q' : α → Multiset IdToken → Prop} (h : Reads P p Q)
    (hP : ∀ τ, P' τ → P τ) (hQ : ∀ a τ, Q a τ → Q' a τ) : Reads P' p Q' := by
  intro τ hτ
  refine wp_mono ?_ _ (h τ (hP τ hτ))
  rintro (a | e | q) τ' h'
  · exact hQ a τ' h'
  · exact h'
  · exact h'

/-- One query, and what it tells. -/
theorem query {q : Query} {Q : q.Ans → Multiset IdToken → Prop} (hq : q.Ordinary)
    (h : ∀ τ r, P τ → idTokens.may (.act (.neutral (.query q))) τ r →
      Q r (τ + idTokens.give (.act (.neutral (.query q))) r)) : Reads P (query q) Q := by
  intro τ hτ
  have huse : idTokens.use (.act (.neutral (.query q))) = 0 := by
    cases q <;> first | rfl | exact hq.elim
  refine ⟨TokenSpec.use_le huse, ?_⟩
  rintro r _ ⟨hmay, rfl⟩
  rw [TokenSpec.after_of_use huse]
  exact h τ r hτ hmay

/-- A query that tells nothing about ids. -/
theorem skip {q : Query} (hq : q.Ordinary)
    (hgive : ∀ r, idTokens.give (.act (.neutral (.query q))) r = 0) :
    Reads P (Virtiofsd.query q) fun _ => P :=
  query hq fun τ r hτ _ => by
    rw [hgive, add_zero]
    exact hτ

end Reads

/-- **All ids are below the counters.** -/
structure SerializedFs.BelowCounters (state : SerializedFs) : Prop where
  root : ROOT_ID < state.nextInode
  inodes : ∀ n ∈ state.inodes, n.id < state.nextInode
  handles : ∀ h ∈ state.handles, h.id < state.nextHandle

theorem Cell.asSerialized_id {c : Cell} {n : SerializedInode} (h : c.asSerialized cfg = .ok n) :
    n.id = c.data.inode := by
  unfold Cell.asSerialized at h
  split at h
  · cases h
  split at h
  · split at h
    · cases h
    · cases h
      rfl
  · cases h
    rfl

theorem readInode_reads {P : Multiset IdToken → Prop} (r : InodeRef) :
    Reads P (readInode cfg r) fun n τ => P τ ∧ n.id = r.data.inode := by
  refine .bind (.skip (q := .loadRefcount r) trivial fun _ => rfl) fun refcount => ?_
  refine .bind (.skip (q := .lockInfo r) trivial fun _ => rfl) fun _ => ?_
  refine .bind (.skip (q := .readInfo r) trivial fun _ => rfl) fun info => ?_
  refine .bind (Q := fun _ => P) ?_ fun _ => ?_
  · unfold assertRootMarked
    split
    · exact .ret fun _ h => h
    · exact fun _ _ => trivial
  refine .bind (.skip (q := .unlockInfo r) trivial fun _ => rfl) fun _ => ?_
  cases hn : Cell.asSerialized cfg ⟨r.data, refcount, info⟩ with
  | ok n => exact .ret fun τ hτ => ⟨hτ, Cell.asSerialized_id hn⟩
  | error e =>
    refine .bind (.skip (q := .loadRefcount r) trivial fun _ => rfl) fun _ => ?_
    exact .ret fun τ hτ => ⟨hτ, rfl⟩

/-- The ids that were read are known. -/
def Sees (l : List IdToken) (τ : Multiset IdToken) : Prop := ∀ t ∈ l, t ∈ τ

theorem Sees.add {l : List IdToken} {τ τ' : Multiset IdToken} (h : Sees l τ) : Sees l (τ + τ') :=
  fun t ht => Multiset.mem_add.mpr (.inl (h t ht))

theorem Sees.concat {l : List IdToken} {t : IdToken} {τ : Multiset IdToken} (h : Sees l τ)
    (ht : t ∈ τ) : Sees (l ++ [t]) τ := by
  simp only [Sees, mem_append, mem_singleton, or_imp, forall_and, forall_eq]
  exact ⟨h, ht⟩

theorem readInodes_reads : ∀ (fuel : Nat) (last : Option Inode) (before : List IdToken),
    Reads (Sees before) (readInodes cfg fuel last)
      fun l => Sees (before ++ l.map fun n => .seenInode n.id)
  | 0, _, before => .ret fun τ hτ => by simpa using hτ
  | fuel + 1, last, before => by
    refine .bind (Q := fun r τ => Sees before τ ∧
      ∀ i, r = some i → .seenInode i.data.inode ∈ τ) ?_ fun r => ?_
    · refine .query (q := .nextAfter last) trivial fun τ r hτ _ => ⟨hτ.add, ?_⟩
      rintro i rfl
      exact Multiset.mem_add.mpr (.inr (Multiset.mem_singleton_self _))
    cases r with
    | none => exact .ret fun τ hτ => by simpa using hτ.1
    | some r =>
      refine .bind (readInode_reads r) fun n => ?_
      refine .bind ((readInodes_reads fuel (some r.data.inode) (before ++ [.seenInode n.id])).mono
        ?_ fun _ _ h => h) fun l => .ret fun τ hτ => ?_
      · rintro τ ⟨⟨hbefore, hr⟩, hn⟩
        exact hbefore.concat (hn ▸ hr r rfl)
      · rwa [append_assoc, singleton_append] at hτ

variable (mountPaths : List (Nat × Name))

/-- **The counters are read after the tables.** -/
theorem readTables_reads (handles : List (Handle × HandleData)) (inodes : List SerializedInode) :
    Reads (Sees ((handles.map fun e => .seenHandle e.1) ++ inodes.map fun n => .seenInode n.id))
      (readTables mountPaths handles inodes) fun state _ => state.BelowCounters := by
  refine .bind (Q := fun nextInode τ => (ROOT_ID < nextInode ∧ ∀ n ∈ inodes, n.id < nextInode) ∧
    ∀ e ∈ handles, IdToken.seenHandle e.1 ∈ τ) ?_ fun nextInode => ?_
  · refine .query (q := .loadNextInode) trivial fun τ r hτ hmay => ⟨⟨hmay.1, fun n hn => ?_⟩, ?_⟩
    · exact hmay.2 _ (hτ _ (mem_append_right _ (mem_map_of_mem hn)))
    · exact fun e he => hτ.add _ (mem_append_left _ (mem_map_of_mem he))
  refine .bind (Q := fun nextHandle _ => (ROOT_ID < nextInode ∧ ∀ n ∈ inodes, n.id < nextInode) ∧
    ∀ e ∈ handles, e.1 < nextHandle) ?_ fun nextHandle => ?_
  · exact .query (q := .loadNextHandle) trivial fun τ r hτ hmay =>
      ⟨hτ.1, fun e he => hmay _ (hτ.2 e he)⟩
  have hopts : ∀ P, Reads P readOpts fun _ => P := by
    intro P
    refine .bind (.skip (q := .load .writeback) trivial fun _ => rfl) fun _ => ?_
    refine .bind (.skip (q := .load .announceSubmounts) trivial fun _ => rfl) fun _ => ?_
    refine .bind (.skip (q := .load .posixAcl) trivial fun _ => rfl) fun _ => ?_
    refine .bind (.skip (q := .load .supGroupExtension) trivial fun _ => rfl) fun _ => ?_
    exact .ret fun _ h => h
  refine .bind (hopts _) fun opts => .ret fun τ hτ => ⟨hτ.1.1, hτ.1.2, fun h hh => ?_⟩
  obtain ⟨e, he, rfl⟩ := mem_map.mp hh
  exact hτ.2 e he

theorem readState_reads (fuel : Nat) :
    Reads (fun _ => True) (readState cfg mountPaths fuel) fun state _ => state.BelowCounters := by
  refine .bind (Q := fun (l : List (Handle × HandleData)) => Sees (l.map fun e => .seenHandle e.1))
    ?_ fun l => .bind (readInodes_reads fuel none _) fun inodes => readTables_reads _ l inodes
  exact .query (q := .readHandles) trivial fun τ r _ _ t ht =>
    Multiset.mem_add.mpr (.inr (Multiset.mem_coe.mpr ht))

/-- How a job may end: the state it sends has its ids below its counters. -/
def JobSends : Outcome IoError PanicSite (Option SerializedFs) → Multiset IdToken → Prop
  | .ok (some state), _ => state.BelowCounters
  | _, _ => True

/-- A thread that keeps to its ids. -/
abbrev Keeping (p : SessionM (Option SerializedFs)) (τ : Multiset IdToken) : Prop :=
  p.wp idTokens.toSpec JobSends τ

/-- A job that sends nothing. -/
theorem Allocates.keeping {p : SessionM α} (hp : Allocates p) (τ : Multiset IdToken) :
    Keeping (p.bind fun _ => .ret none) τ :=
  wp_bind_of (hp τ) (fun _ _ _ => trivial) (fun _ _ _ => trivial) fun _ _ _ => trivial

theorem store_allocates (f : FsFlag) (v : Bool) :
    Allocates (liftM (query (.store f v)) : SessionM Unit) :=
  sessionAct_allocates (.act (.neutral (.query (.store f v)))) rfl

/-- The root has an id that is not drawn. -/
theorem use_newInode_root {c : Cell} (h : c.data.inode = ROOT_ID) :
    idTokens.use (.newInode c) = 0 := if_pos h

/-- **All sessions keep to their ids.** -/
theorem allocates_sessions :
    SessionParts .offGuest fun {α : Type} (p : SessionM α) => Allocates p where
  toCompositional := Allocates.compositional
  files := allocates_parts.files
  store f v _ := store_allocates f v
  clearHandles := sessionAct_allocates (.act (.neutral (.query .clearHandles))) rfl
  clear := sessionAct_allocates .clear rfl
  newRoot c hc _ := sessionAct_allocates (.newInode c) (use_newInode_root hc)

/-- A program that returns a state with its ids below its counters. -/
def Sending (p : FsM SerializedFs) : Prop :=
  ∀ τ, (liftM p : SessionM SerializedFs).wp idTokens.toSpec (fun o _ => match o with
    | .ok state => state.BelowCounters
    | _ => True) τ

theorem Sending.after {p : FsM α} {k : α → FsM SerializedFs} (hp : Allocates (liftM p : SessionM α))
    (hk : ∀ a, Sending (k a)) : Sending (p.bind k) := by
  intro τ
  show (mapAct _ _ _ (p.bind k)).wp _ _ _
  rw [mapAct_bind]
  exact wp_bind_of (hp τ) (fun a τ' _ => hk a τ') (fun _ _ _ => trivial) fun _ _ _ => trivial

/-- What is read is what is sent. -/
theorem serializeState_sending (fuel : Nat) :
    Sending (serializeState cfg mountPaths fuel) := by
  have h := allocates_parts
  have hclear := h.refAct .clearMigrationInfo trivial
  have hread : Sending ((liftM (readState cfg mountPaths fuel) : FsM SerializedFs).bind fun state =>
      (refAct .clearMigrationInfo).bind fun _ => .ret state) := by
    intro τ
    show (mapAct _ _ _ (Prog.bind _ _)).wp _ _ _
    rw [mapAct_bind]
    refine wp_bind_of (readState_reads mountPaths fuel τ trivial) (fun state τ₁ hstate => ?_)
      (fun _ _ _ => trivial) fun _ _ _ => trivial
    have hend : Sending ((refAct .clearMigrationInfo).bind fun _ => .ret state) :=
      .after hclear fun _ _ => hstate
    exact hend τ₁
  refine .after (store_allocates .trackMigrationInfo false) fun _ => ?_
  split
  · exact .after (h.onErr (h.confirmPaths fuel) hclear) fun _ => hread
  · exact hread

/-- **Every job keeps to its ids.** -/
theorem SessionJob.keeping (job : SessionJob) (hjob : job.OverChain) (τ : Multiset IdToken) :
    Keeping (job.prog x cfg) τ := by
  cases job with
  | request r => exact (allocates_parts.request x cfg r hjob).keeping τ
  | prepare fuel =>
    have hstore := store_allocates .trackMigrationInfo true
    exact (allocates_parts.prepareSerialization fuel hstore).keeping τ
  | serialize mountPaths fuel =>
    exact wp_bind_of (serializeState_sending mountPaths fuel τ) (fun _ _ hstate => hstate)
      (fun _ _ _ => trivial) fun _ _ _ => trivial
  | init capable => exact (allocates_sessions.init capable).keeping τ
  | destroy => exact allocates_sessions.destroy.keeping τ

/-! ## 4. Runs -/

/-- **What an action may do with ids**: it draws none that is in use, it enters no handle over
another one, and `get_or_insert` reports no double use. -/
def SessionAct.UsesFresh (fs : PassthroughFs) : (a : SessionAct) → a.Ans → Prop
  | .act (.neutral (.query .fetchAddInode)), i => fs.inodes.data.lookup i = none
  | .act (.neutral (.query .fetchAddHandle)), h => h ∉ fs.handles
  | .act (.neutral (.query (.insertHandle h _))), _ => h ∉ fs.handles
  | .act (.ref (.getOrInsert _ _)), k => k ≠ InodeStoreInner.Insertion.doubleUse
  | _, _ => True

/-- An action of a thread that has the ids it needs. -/
theorem Fresh.usesFresh {fs fs' : PassthroughFs} {rest τ : Multiset IdToken} {r : a.Ans}
    (h : Fresh fs (rest + τ)) (huse : idTokens.use a ≤ τ) (hmay : idTokens.may a τ r)
    (hp : a.PerformShared fs r fs') : a.UsesFresh fs r := by
  rcases a with ((c | q) | a) | _ | c | ⟨r', n⟩
  · trivial
  · have hanswer : answer q fs = (r, fs') := hp
    cases q with
    | fetchAddInode =>
      cases hanswer
      exact h.inode_notMem.1
    | fetchAddHandle =>
      cases hanswer
      exact h.handle_notMem.1
    | insertHandle k d => exact (h.spend huse trivial).1.2
    | _ => trivial
  · cases a with
    | getOrInsert d info => exact hmay
    | _ => trivial
  · trivial
  · trivial
  · trivial

namespace Allocating

variable {fs : PassthroughFs} {s s' : Allocating}

/-- What holds in a run, as long as the counters do not wrap around. -/
structure Ok (fs : PassthroughFs) (s : Allocating) : Prop where
  fresh : Fresh s.pool.shared s.pool.tokens
  keeping : ∀ t ∈ s.pool.threads, Keeping t.1 t.2
  nextInode : s.pool.shared.nextInode = fs.nextInode + s.inodes
  nextHandle : s.pool.shared.nextHandle = fs.nextHandle + s.handles

variable {l₁ l₂ : List (SessionM (Option SerializedFs) × Multiset IdToken)}

/-- The ids of one thread, and those of all others. -/
theorem Ok.at {fs₁ : PassthroughFs} {t : SessionM (Option SerializedFs) × Multiset IdToken}
    {m n : Nat} (h : Ok fs ⟨⟨fs₁, l₁ ++ t :: l₂⟩, m, n⟩) :
    Fresh fs₁ (Pool.tokens (⟨fs₁, l₁ ++ l₂⟩ : IdThreads) + t.2) ∧ Keeping t.1 t.2 := by
  have hfresh := h.fresh
  rw [Pool.tokens_insert fs₁ fs₁] at hfresh
  exact ⟨hfresh, h.keeping t (by simp)⟩

/-- **One action is fresh**, and keeps what holds. -/
theorem Ok.act {fs₁ fs₂ : PassthroughFs} {k : a.Ans → SessionM (Option SerializedFs)}
    {τ : Multiset IdToken} {r : a.Ans} {m n : Nat}
    (h : Ok fs ⟨⟨fs₁, l₁ ++ (.act a k, τ) :: l₂⟩, m, n⟩) (hp : a.PerformShared fs₁ r fs₂)
    (hinode : fs.nextInode + (m + a.drawnInodes) < 2 ^ 64)
    (hhandle : fs.nextHandle + (n + a.drawnHandles) < 2 ^ 64) :
    a.UsesFresh fs₁ r ∧ Ok fs ⟨⟨fs₂, l₁ ++ (k r, idTokens.after a r τ) :: l₂⟩,
      m + a.drawnInodes, n + a.drawnHandles⟩ := by
  obtain ⟨hfresh, huse, hkeeping⟩ := h.at
  have hnext : fs₁.nextInode = fs.nextInode + m := h.nextInode
  have hnextHandle : fs₁.nextHandle = fs.nextHandle + n := h.nextHandle
  rw [← add_assoc, ← hnext] at hinode
  rw [← add_assoc, ← hnextHandle] at hhandle
  obtain ⟨hmay, hfresh'⟩ := fresh_of_perform hfresh huse hp hinode hhandle
  obtain ⟨-, hinodes, hhandles⟩ := hp.tables (hfresh.counts huse hinode hhandle) hfresh.wellFormed
  refine ⟨hfresh.usesFresh huse hmay hp, ?_, ?_, ?_, ?_⟩
  · rw [Pool.tokens_insert fs₂ fs₁]
    exact hfresh'
  · exact forall_mem_replace h.keeping (hkeeping r _ ⟨hmay, rfl⟩)
  · exact hinodes.trans (by rw [hnext, add_assoc])
  · exact hhandles.trans (by rw [hnextHandle, add_assoc])

/-- No run draws fewer ids as it goes on. -/
theorem NoWrap.of_step (hstep : Step x cfg s s') (h : s'.NoWrap fs) : s.NoWrap fs := by
  cases hstep with
  | start | finish | unwind => exact h
  | act hp =>
    refine ⟨lt_of_le_of_lt ?_ h.1, lt_of_le_of_lt ?_ h.2⟩ <;>
      exact Nat.add_le_add_left (Nat.le_add_right _ _) _

/-- **One step keeps what holds**, if the counters have not wrapped around after it. -/
theorem Ok.step (h : Ok fs s) (hstep : Step x cfg s s') (hwrap : s'.NoWrap fs) : Ok fs s' := by
  cases hstep with
  | start job hjob =>
    rename_i fs₁ l m n
    refine ⟨?_, ?_, h.nextInode, h.nextHandle⟩
    · have htok := Pool.tokens_insert fs₁ fs₁ [] l (job.prog x cfg, (0 : Multiset IdToken))
      rw [add_zero] at htok
      show Fresh fs₁ (Pool.tokens (⟨fs₁, (job.prog x cfg, 0) :: l⟩ : IdThreads))
      exact htok ▸ h.fresh
    · exact forall_mem_cons.mpr ⟨job.keeping hjob 0, h.keeping⟩
  | act hp => exact (h.act hp hwrap.1 hwrap.2).2
  | finish hend =>
    rename_i fs₁ l₁ l₂ p τ m n
    exact ⟨h.at.1.mono (Multiset.le_add_right _ _), forall_mem_remove h.keeping, h.nextInode,
      h.nextHandle⟩
  | unwind r =>
    rename_i fs₁ l₁ l₂ q τ m n
    have hp : SessionAct.PerformShared (.act (.ref (.dropRef r))) fs₁ ()
        (reference (.dropRef r) fs₁).2 := rfl
    have hnext : fs₁.nextInode = fs.nextInode + m := h.nextInode
    have hnextHandle : fs₁.nextHandle = fs.nextHandle + n := h.nextHandle
    have hfresh := h.fresh
    rw [← add_zero (Pool.tokens _)] at hfresh
    have hdropped := (fresh_of_perform hfresh (le_refl 0) hp (hnext ▸ hwrap.1)
      (hnextHandle ▸ hwrap.2)).2
    exact ⟨hdropped.mono (Multiset.le_add_right _ _), h.keeping, h.nextInode, h.nextHandle⟩

theorem Run.ok (hstart : Fresh fs 0) (h : Run x cfg fs s) (hwrap : s.NoWrap fs) : Ok fs s := by
  induction h with
  | start => exact ⟨hstart, fun t ht => absurd ht not_mem_nil, rfl, rfl⟩
  | step _ hstep ih => exact (ih (hwrap.of_step hstep)).step hstep hwrap

end Allocating

/-! ## 5. A state that was sent -/

/-- The store while it is restored: its maps agree, and its ids are below `n`. -/
def InodeStoreInner.Below (s : InodeStoreInner) (n : Nat) : Prop :=
  s.WellFormed ∧ ∀ i a, s.data.lookup i = some a → i < n

theorem InodeStoreInner.Below.cleared (s : InodeStoreInner) (n : Nat) : s.clear.Below n := by
  refine ⟨⟨fun i a hi => ?_, fun ids i hi => ?_, fun fh i hi => ?_⟩, fun i a hi => ?_⟩ <;>
    simp [clear_eq, emptied] at hi

/-- Nobody holds a reference while a state is applied; but for that, actions do what they do
while others run. -/
theorem World.performSession_shared (w : World) (a : SessionAct) (h : a ≠ .clear) :
    a.PerformShared w.fs (w.performSession a).1 (w.performSession a).2.fs := by
  cases a with
  | clear => exact absurd rfl h
  | newInode c =>
    simp only [World.performSession, SessionAct.PerformShared]
    cases hnew : w.fs.inodes.newInode c with
    | some | none => exact ⟨rfl, rfl⟩
  | storeRefcount r n => rfl
  | act a => rcases a with (c | q) | r <;> rfl

/-- **Restoring enters only the ids of the state.** -/
theorem InodeStoreInner.Below.restore {w : World} {n : Nat} (h : w.fs.inodes.Below n)
    (ha : a.RestoresIds fun i => i < n) :
    (w.performSession a).2.fs.inodes.Below n := by
  by_cases hclear : a = .clear
  · subst hclear
    exact .cleared w.fs.inodes n
  · have hp := w.performSession_shared a hclear
    refine ⟨hp.wellFormed h.1, fun i b hi => ?_⟩
    rcases hp.effects.lookup i b hi with hi | ⟨hi, -⟩
    · exact h.2 i b hi
    · cases a with
      | newInode c =>
        rw [SessionAct.inserts_newInode hi]
        exact ha
      | act a =>
        rcases a with n | r
        · cases hi
        · cases r with
          | getOrInsert d info => exact ha.elim
          | _ => cases hi
      | _ => cases hi

variable {w w' : World} {state : SerializedFs}

/-- The store that is restored has the ids of the state. -/
theorem below_of_restoreInodes_run {n : Nat} (h : ∀ m ∈ state.inodes, m.id < n)
    (hr : (restoreInodes cfg state.mountPaths state.inodes).run World.performSession w =
      (.ok (), w')) :
    w'.fs.inodes.Below n := by
  -- The first action clears the store; from there on it is below.
  have hentering : SessionEntering (fun i => i < n)
      (restoreInodes cfg state.mountPaths state.inodes) :=
    restoreInodes_entering h cfg state.mountPaths
  have hrest := hentering.2 () () trivial
  have hrun := Obeys.run (h := World.performSession) (I := fun w : World => w.fs.inodes.Below n)
    hrest (fun a w₁ ha hw₁ => ⟨trivial, hw₁.restore ha⟩)
    (s := { w with fs := w.fs.withInodes w.fs.inodes.clear }) (.cleared w.fs.inodes n) |>.2
  rw [show w' = ((restoreInodes cfg state.mountPaths state.inodes).run World.performSession w).2 by
    rw [hr]]
  exact hrun

/-- A handle that is restored. -/
theorem handles_of_handle_run {h : SerializedHandle}
    (hr : (liftM (h.deserializeWithFs cfg) : SessionM Unit).run World.performSession w =
      (.ok (), w')) :
    ∀ k, k ∈ w'.fs.handles → k ∈ w.fs.handles ∨ h.id = k := by
  unfold SerializedHandle.deserializeWithFs at hr
  rw [bind_eq, session_bind] at hr
  obtain ⟨found, w₁, hget, hr⟩ := of_run_bind _ hr
  obtain rfl : w = w₁ := congrArg Prod.snd hget
  cases found with
  | none => cases hr
  | some r =>
    obtain ⟨file, w₂, hfile, -, hhandles⟩ := openFile_attempt h r.data w
    dsimp only at hr
    rw [bind_eq, session_bind, run_bind_of_ok _ hfile] at hr
    split at hr
    · cases hr
    · have hw' := congrArg (fun o => o.2.fs.handles) hr
      intro k hk
      rw [show w'.fs.handles = w₂.fs.handles.insert h.id _ from hw'.symm, AList.mem_insert,
        hhandles] at hk
      exact hk.symm.imp_right Eq.symm

theorem handles_of_restoreHandles_run : ∀ (handles : List SerializedHandle) {w w' : World},
    (liftM (restoreHandles cfg handles) : SessionM Unit).run World.performSession w = (.ok (), w') →
      ∀ k, k ∈ w'.fs.handles → k ∈ w.fs.handles ∨ ∃ h ∈ handles, h.id = k
  | [], w, w', hr, k, hk => by
    obtain rfl : w = w' := congrArg Prod.snd hr
    exact .inl hk
  | h :: rest, w, w', hr, k, hk => by
    unfold restoreHandles at hr
    rw [bind_eq, session_bind] at hr
    obtain ⟨_, w₁, hrun, hrest⟩ := of_run_bind _ hr
    rcases handles_of_restoreHandles_run rest hrest k hk with hk | ⟨h', hh', hk⟩
    · rcases handles_of_handle_run hrun k hk with hk | hk
      · exact .inl hk
      · exact .inr ⟨h, mem_cons_self, hk⟩
    · exact .inr ⟨h', mem_cons_of_mem _ hh', hk⟩

/-- **A state with its ids below its counters, applied.** -/
theorem SerializedFs.BelowCounters.fresh (hstate : state.BelowCounters)
    (h : (state.apply cfg).run World.performSession w = (.ok (), w')) : Fresh w'.fs 0 := by
  obtain ⟨-, hnextInode, hnextHandle⟩ := SerializedFs.of_apply_run h
  obtain ⟨w₁, w₂, w₃, -, h₂, h₃, rfl⟩ := SerializedFs.apply_run_iff.mp h
  have hbelow := below_of_restoreInodes_run hstate.inodes h₂
  have hstore : w₃.fs.inodes = w₂.fs.inodes := by
    have hneutral := neutral_session_inodes (restoreHandles cfg state.handles)
      (w₂.cleared state.nextInode)
    rw [h₃] at hneutral
    exact hneutral
  refine ⟨?_, ?_, ?_, ?_, ?_, ?_⟩
  · show w₃.fs.inodes.WellFormed
    rw [hstore]
    exact hbelow.1
  · rw [hnextInode]
    exact hstate.root
  · rw [hnextInode]
    show ∀ i a, w₃.fs.inodes.data.lookup i = some a → _
    rw [hstore]
    exact hbelow.2
  · intro k hk
    rcases handles_of_restoreHandles_run state.handles h₃ k hk with hk | ⟨h, hh, rfl⟩
    · exact absurd hk (AList.notMem_empty k)
    · exact hstate.handles h hh
  · exact fun t _ => by simp
  · exact fun t ht => absurd ht (Multiset.notMem_zero t)

/-- **What a daemon starts with has its ids below its counters.** -/
theorem Origin.fresh {fs : PassthroughFs} (h : Origin fs) : Fresh fs 0 := by
  induction h with
  | new guestFdLimit dentryIndex =>
    refine ⟨InodeStoreInner.WellFormed.emptied .empty, Nat.lt_succ_self _, fun i a hi => ?_,
      fun k hk => absurd hk (AList.notMem_empty k), fun t _ => by simp,
      fun t ht => absurd ht (Multiset.notMem_zero t)⟩
    simp [initial, empty] at hi
  | migrated _ hrun hwrap hsends happly ih =>
    obtain ⟨τ, hτ⟩ := hsends
    exact SerializedFs.BelowCounters.fresh ((hrun.ok ih hwrap).keeping _ hτ) happly

/-- **Ids are fresh, also after migrations**, as long as the counters do not wrap around: what
is sent has its ids below its counters, and no action draws or enters an id that is in use. -/
theorem ids_stay_fresh {fs : PassthroughFs} {s : Allocating} (hfs : Origin fs)
    (hrun : Allocating.Run x cfg fs s) (hwrap : s.NoWrap fs) :
    (∀ state, s.Sends state → state.BelowCounters) ∧
      ∀ a k τ r fs', (.act a k, τ) ∈ s.pool.threads → a.PerformShared s.pool.shared r fs' →
        fs.nextInode + (s.inodes + a.drawnInodes) < 2 ^ 64 →
        fs.nextHandle + (s.handles + a.drawnHandles) < 2 ^ 64 → a.UsesFresh s.pool.shared r := by
  have hok := hrun.ok hfs.fresh hwrap
  refine ⟨fun state ⟨τ, hτ⟩ => hok.keeping _ hτ, fun a k τ r fs' ht hp hinode hhandle => ?_⟩
  obtain ⟨l₁, l₂, hl⟩ := append_of_mem ht
  obtain ⟨⟨shared, threads⟩, m, n⟩ := s
  dsimp only at hl
  subst hl
  exact (hok.act hp hinode hhandle).1

/-! ## 6. Wrapping around -/

/-- The file system of one thread that runs alone, and how many ids were drawn. -/
structure Drawing where
  fs : PassthroughFs
  inodes : Nat
  handles : Nat

namespace Drawing

/-- What an action does, on an obliging host. -/
def answer : (a : SessionAct) → PassthroughFs → a.Ans × PassthroughFs
  | .act a, fs =>
    let r := World.perform a ⟨fs, obligingHost, 0⟩
    (r.1, r.2.fs)
  | .clear, fs => ((), fs.withInodes fs.inodes.emptied)
  | .newInode c, fs =>
    match fs.inodes.newInode c with
    | some s => (true, fs.withInodes s)
    | none => (false, fs)
  | .storeRefcount r n, fs => ((), fs.withInodes (fs.inodes.storeRefcount r n))

def perform (a : SessionAct) (d : Drawing) : a.Ans × Drawing :=
  ((answer a d.fs).1, ⟨(answer a d.fs).2, d.inodes + a.drawnInodes, d.handles + a.drawnHandles⟩)

theorem answer_shared (a : SessionAct) (fs : PassthroughFs) :
    a.PerformShared fs (answer a fs).1 (answer a fs).2 := by
  cases a with
  | clear | storeRefcount => rfl
  | newInode c =>
    simp only [answer, SessionAct.PerformShared]
    cases hnew : fs.inodes.newInode c with
    | some | none => exact ⟨rfl, rfl⟩
  | act a => exact World.perform_spec a ⟨fs, obligingHost, 0⟩

/-- The state with one thread. -/
def thread (d : Drawing) (p : SessionM (Option SerializedFs)) (τ : Multiset IdToken) : Allocating :=
  ⟨⟨d.fs, [(p, τ)]⟩, d.inodes, d.handles⟩

/-- The state with none. -/
def idle (d : Drawing) : Allocating := ⟨⟨d.fs, []⟩, d.inodes, d.handles⟩

variable {fs : PassthroughFs} {d d' : Drawing}

/-- **A job that runs alone.** -/
theorem run_advance (h : Allocating.Run x cfg fs d.idle) (job : SessionJob) (hjob : job.OverChain)
    {n : Nat} {p : SessionM (Option SerializedFs)}
    (hr : (job.prog x cfg).advance perform n d = (p, d')) :
    ∃ τ, Allocating.Run x cfg fs (d'.thread p τ) := by
  refine Prog.advance_keeps perform (I := fun p d => ∃ τ, Allocating.Run x cfg fs (d.thread p τ))
    (fun a k d hd => ?_) n hr ⟨0, h.step (.start job hjob)⟩
  obtain ⟨τ, hτ⟩ := hd
  exact ⟨_, hτ.step (@Allocating.Step.act x cfg _ _ [] [] _ _ _ _ _ _ (answer_shared a d.fs))⟩

/-- **One job after the other.** -/
theorem run_job (h : Allocating.Run x cfg fs d.idle) (job : SessionJob) (hjob : job.OverChain)
    {n : Nat} {a : Option SerializedFs}
    (hr : (job.prog x cfg).advance perform n d = (.ret a, d')) :
    (∃ τ, Allocating.Run x cfg fs (d'.thread (.ret a) τ)) ∧ Allocating.Run x cfg fs d'.idle := by
  obtain ⟨τ, hτ⟩ := run_advance h job hjob hr
  have hend : Allocating.Step x cfg (d'.thread (.ret a) τ) d'.idle :=
    @Allocating.Step.finish x cfg _ [] [] _ _ _ _ fun _ _ h => nomatch h
  exact ⟨⟨τ, hτ⟩, hτ.step hend⟩

end Drawing

/-- OPENDIR and RELEASEDIR of the root. -/
def opendirRoot : SessionJob := .request (.file (.opendir ROOT_ID 0))
def releasedirRoot (h : Handle) : SessionJob := .request (.file (.release ROOT_ID h))

/-- **The state that is sent** by a daemon whose guest has opened the root twice. -/
def sentState : SerializedFs :=
  ⟨[⟨ROOT_ID, 2, .rootNode, none⟩], 2,
    [⟨1, ROOT_ID, O_DIRECTORY⟩, ⟨0, ROOT_ID, O_DIRECTORY⟩], 2, ⟨false, false, false, false⟩, []⟩

/-- No option is negotiated. -/
def noFlags : FsFlag → Bool :=
  Function.update (Function.update (Function.update (Function.update (fun _ => false)
    .writeback false) .announceSubmounts false) .posixAcl false) .supGroupExtension false

/-- The file system of a daemon that has opened the root. -/
def restoredFs (handles : HandleTable) (nextHandle guestFds : Nat) :
    PassthroughFs :=
  { (initial guestFds false).withInodes (empty.insertNew
      ⟨⟨ROOT_ID, .file 3, ⟨1, 1, 1⟩, 0o40755⟩, 2, some ⟨.rootNode, none⟩⟩).2 with
    handles := handles
    nextHandle := nextHandle
    flags := noFlags }

/-- An open handle of the root. -/
def rootHandle : HandleData := ⟨ROOT_ID, .ok 5, S_IFDIR, O_DIRECTORY⟩

/-- The two handles of the state, as they were opened and as they are restored. -/
def openedHandles : HandleTable :=
  ((∅ : HandleTable).insert 0 rootHandle).insert 1 rootHandle
def restoredHandles : HandleTable :=
  ((∅ : HandleTable).insert 1 rootHandle).insert 0 rootHandle

/-- The root is opened: its handle has the next id. -/
theorem opendirRoot_run (handles : HandleTable) (h fds n : Nat) :
    (opendirRoot.prog .readWrite Config.default).advance Drawing.perform 6
      ⟨restoredFs handles h (fds + 1), 0, n⟩ =
        (.ret none, ⟨restoredFs (handles.insert h rootHandle) ((h + 1) % 2 ^ 64) fds, 0, n + 1⟩) :=
  rfl

/-- The handle is closed again. -/
theorem releasedirRoot_run (handles : HandleTable) (h next fds n : Nat) :
    ((releasedirRoot h).prog .readWrite Config.default).advance Drawing.perform 1
      ⟨restoredFs (handles.insert h rootHandle) next fds, 0, n⟩ =
        (.ret none, ⟨restoredFs ((handles.insert h rootHandle).erase h) next (fds + 1), 0, n⟩) := by
  have hremove : answer (.removeHandle h ROOT_ID)
      (restoredFs (handles.insert h rootHandle) next fds) =
        (true, restoredFs ((handles.insert h rootHandle).erase h) next (fds + 1)) := by
    simp only [answer, restoredFs, AList.lookup_insert]
    rfl
  have hact : Drawing.perform (.act (.neutral (.query (.removeHandle h ROOT_ID))))
      ⟨restoredFs (handles.insert h rootHandle) next fds, 0, n⟩ =
        (true, ⟨restoredFs ((handles.insert h rootHandle).erase h) next (fds + 1), 0, n⟩) := by
    show ((answer _ _).1, Drawing.mk (answer _ _).2 _ _) = _
    rw [hremove]
    rfl
  show Prog.advance _ 1
    (Prog.act (SessionAct.act (.neutral (.query (.removeHandle h ROOT_ID)))) _) _ = _
  rw [Prog.advance, hact]
  rfl

theorem sentState_sent : ∃ s,
    Allocating.Run .readWrite Config.default (initial 9 false) s ∧
      s.NoWrap (initial 9 false) ∧ s.Sends sentState := by
  have hinit : (SessionJob.prog .readWrite Config.default (.init 0)).advance
      Drawing.perform 20 ⟨initial 9 false, 0, 0⟩ =
        (.ret none, ⟨restoredFs ∅ 0 8, 0, 0⟩) := rfl
  have hsend : (SessionJob.prog .readWrite Config.default (.serialize [] 3)).advance
      Drawing.perform 20 ⟨restoredFs openedHandles 2 6, 0, 2⟩ =
        (.ret (some sentState), ⟨({ restoredFs openedHandles 2 6 with
          flags := Function.update noFlags .trackMigrationInfo false }).withInodes
            (restoredFs openedHandles 2 6).inodes.clearMigrationInfo, 0, 2⟩) := rfl
  have h₁ := Drawing.run_job .start (.init 0) trivial hinit
  have h₂ := Drawing.run_job h₁.2 opendirRoot trivial (opendirRoot_run ∅ 0 7 0)
  have h₃ := Drawing.run_job h₂.2 opendirRoot trivial (opendirRoot_run _ 1 6 1)
  obtain ⟨⟨τ, h₄⟩, -⟩ := Drawing.run_job h₃.2 (.serialize [] 3) trivial hsend
  have hwrap : ROOT_ID + 1 + 0 < 2 ^ 64 ∧ 0 + 2 < 2 ^ 64 := by decide
  exact ⟨_, h₄, hwrap, τ, mem_cons_self⟩

theorem restored_origin : Origin (restoredFs restoredHandles 2 6) := by
  obtain ⟨s, hrun, hwrap, hsends⟩ := sentState_sent
  have happly : (sentState.apply Config.default).run World.performSession (freshWorld 9) =
      (.ok (), ⟨restoredFs restoredHandles 2 6, obligingHost, 4⟩) := rfl
  exact .migrated (.new 9 false) hrun hwrap hsends happly

/-- **Opening and closing the root again and again**: handle 0 stays open until its id comes
back. -/
theorem rounds : ∀ n, 2 + n ≤ 2 ^ 64 → ∃ handles : HandleTable, 0 ∈ handles ∧
    Allocating.Run .readWrite Config.default (restoredFs restoredHandles 2 6)
      (Drawing.idle ⟨restoredFs handles ((2 + n) % 2 ^ 64) 6, 0, n⟩)
  | 0, _ => ⟨restoredHandles, by decide, .start⟩
  | n + 1, hn => by
    obtain ⟨handles, hmem, hrun⟩ := rounds n (by omega)
    have hnext : (2 + n) % 2 ^ 64 = 2 + n := Nat.mod_eq_of_lt (by omega)
    rw [hnext] at hrun
    have hopen := Drawing.run_job hrun opendirRoot trivial (opendirRoot_run handles (2 + n) 5 n)
    have hclose := Drawing.run_job hopen.2 (releasedirRoot (2 + n)) trivial
      (releasedirRoot_run handles (2 + n) ((2 + n + 1) % 2 ^ 64) 5 (n + 1))
    have hne : 0 ≠ 2 + n := by omega
    refine ⟨(handles.insert (2 + n) rootHandle).erase (2 + n), ?_, hclose.2⟩
    exact AList.mem_erase.mpr ⟨hne, (AList.mem_insert _).mpr (.inr hmem)⟩

/-- The last action of OPENDIR: the handle is entered into the table. -/
theorem opendirRoot_enters (handles : HandleTable) (h n : Nat) :
    ∃ k, (opendirRoot.prog .readWrite Config.default).advance Drawing.perform 5
      ⟨restoredFs handles h 6, 0, n⟩ =
        (.act (.act (.neutral (.query (.insertHandle h rootHandle)))) k,
          ⟨restoredFs handles ((h + 1) % 2 ^ 64) 5, 0, n + 1⟩) := ⟨_, rfl⟩

/-- **An open handle is overwritten** after fewer than 2^64 allocations: the destination goes
on where the source stopped, and its counter wraps around before. -/
theorem handle_overwritten : ∃ (fs : PassthroughFs) (s : Allocating), Origin fs ∧
    Allocating.Run .readWrite Config.default fs s ∧ s.inodes + s.handles < 2 ^ 64 ∧
      ∃ h d k τ, (.act (.act (.neutral (.query (.insertHandle h d)))) k, τ) ∈ s.pool.threads ∧
        h ∈ s.pool.shared.handles := by
  obtain ⟨handles, hmem, hrun⟩ := rounds (2 ^ 64 - 2) (by decide)
  have hzero : (2 + (2 ^ 64 - 2)) % 2 ^ 64 = 0 := by decide
  rw [hzero] at hrun
  obtain ⟨k, hk⟩ := opendirRoot_enters handles 0 (2 ^ 64 - 2)
  obtain ⟨τ, hτ⟩ := Drawing.run_advance hrun opendirRoot trivial hk
  have hfewer : 0 + (2 ^ 64 - 2 + 1) < 2 ^ 64 := by decide
  exact ⟨_, _, restored_origin, hτ, hfewer, 0, rootHandle, k, τ, mem_cons_self, hmem⟩

/-- The first handle that is opened after the migration is a new one. -/
theorem ids_stay_fresh_opendir : sentState.BelowCounters ∧ 2 ∉ restoredHandles := by
  obtain ⟨s, hrun, hwrap, hsends⟩ := sentState_sent
  obtain ⟨k, hk⟩ := opendirRoot_enters restoredHandles 2 0
  obtain ⟨τ, hτ⟩ := Drawing.run_advance .start opendirRoot trivial hk
  have hone : ROOT_ID + 1 + 0 < 2 ^ 64 ∧ 2 + 1 < 2 ^ 64 := by decide
  refine ⟨(ids_stay_fresh (.new 9 false) hrun hwrap).1 _ hsends, ?_⟩
  exact (ids_stay_fresh restored_origin hτ hone).2 _ k τ () _ mem_cons_self rfl hone.1 hone.2

end Virtiofsd
