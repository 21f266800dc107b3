/-
  # A migration that is cancelled (`acked_features` in `vhost_user.rs`)

  The frontend announces a migration by setting `F_LOG_ALL`, and the back end starts a thread
  that prepares it.  Clearing the flag cancels the migration: the thread is told to stop, and is
  waited for.  That is all.  The infos that were collected stay where they are, each with a strong
  reference to its parent, and `track_migration_info` stays set, so that every lookup adds one
  more.  Only the end of a migration resets the flag.

  So a cancelled migration ALWAYS leaves a trace: there is none exactly in sessions in which
  `F_LOG_ALL` was never set.
-/
import Virtiofsd.Lib.Duties
import Virtiofsd.Migration.Sessions
import Virtiofsd.Passthrough.Resets

namespace Virtiofsd

open Lib InodeStoreInner PassthroughFs

/-! ## 1. The back end -/

/-- **The back end.**  `premigration` is what is left of the thread that prepares a migration,
and `cancel` the flag that it shares with it.  `prepared` and `lost` are history: whether
`F_LOG_ALL` was ever set, and the references that threads had left that ended without a reply
(the lookup of a CREATE that could not open its file). -/
structure VhostUserFsBackend where
  system : System
  premigration : Option (FsM Reply)
  cancel : Bool
  prepared : Bool
  lost : Multiset Ref

/-- The thread reads the flag it shares with the back end. -/
def CancelRead (cancel : Bool) : (a : Act) → a.Ans → Prop
  | .neutral (.host .cancelled), r => r = cancel
  | _, _ => True

namespace VhostUserFsBackend

abbrev fs (b : VhostUserFsBackend) : PassthroughFs := b.system.pool.shared

/-- **One step.**  Requests come from the guest, and `F_LOG_ALL` from the frontend; a request
comes with a reader or a writer of the server's and forgets no more than the guest holds. -/
inductive Step (x : Export) (cfg : Config) : VhostUserFsBackend → VhostUserFsBackend → Prop where
  | request {s : System} {pre c m lost} (r : Request) (hr : r.OverChain)
      (hheld : r.forgets ≤ s.guest) :
      Step x cfg ⟨s, pre, c, m, lost⟩
        ⟨⟨⟨s.pool.shared, (x.serve cfg r, guestRefs r.forgets) :: s.pool.threads⟩,
          s.guest - r.forgets⟩, pre, c, m, lost⟩
  | act {p p' : Threads} {g pre c m lost} (h : Pool.Step refTokens Act.Perform p p') :
      Step x cfg ⟨⟨p, g⟩, pre, c, m, lost⟩ ⟨⟨p', g⟩, pre, c, m, lost⟩
  | reply {fs l₁ l₂ τ g pre c m lost} {a : Reply} :
      Step x cfg ⟨⟨⟨fs, l₁ ++ (.ret a, τ) :: l₂⟩, g⟩, pre, c, m, lost⟩
        ⟨⟨⟨fs, l₁ ++ l₂⟩, g + a.granted⟩, pre, c, m, lost⟩
  | fail {fs l₁ l₂ e τ g pre c m lost} :
      Step x cfg ⟨⟨⟨fs, l₁ ++ (.err e, τ) :: l₂⟩, g⟩, pre, c, m, lost⟩
        ⟨⟨⟨fs, l₁ ++ l₂⟩, g⟩, pre, c, m, lost + τ⟩
  /-- A thread that panics drops its strong references, and is gone then. -/
  | unwind {fs l₁ l₂ q τ r g pre c m lost} :
      Step x cfg ⟨⟨⟨fs, l₁ ++ (.panic q, τ + {.strong r}) :: l₂⟩, g⟩, pre, c, m, lost⟩
        ⟨⟨⟨(reference (.dropRef r) fs).2, l₁ ++ (.panic q, τ) :: l₂⟩, g⟩, pre, c, m,
          lost⟩
  | died {fs l₁ l₂ q τ g pre c m lost} (h : ∀ r, .strong r ∉ τ) :
      Step x cfg ⟨⟨⟨fs, l₁ ++ (.panic q, τ) :: l₂⟩, g⟩, pre, c, m, lost⟩
        ⟨⟨⟨fs, l₁ ++ l₂⟩, g⟩, pre, c, m, lost + τ⟩
  /-- `F_LOG_ALL` is set: prepare for migration, unless that is going on already. -/
  | setLogAll {s c m lost} (fuel : Nat) :
      Step x cfg ⟨s, none, c, m, lost⟩
        ⟨s, some (Job.prog x cfg (.prepare fuel)), false, true, lost⟩
  | setLogAllAgain {s p c m lost} :
      Step x cfg ⟨s, some p, c, m, lost⟩ ⟨s, some p, c, m, lost⟩
  /-- `F_LOG_ALL` is cleared: the thread is told to stop. -/
  | clearLogAll {s p c m lost} :
      Step x cfg ⟨s, some p, c, m, lost⟩ ⟨s, some p, true, m, lost⟩
  /-- And `acked_features` returns when it has stopped. -/
  | join {s m lost} {p : FsM Reply} (h : ∀ a k, p ≠ .act a k) :
      Step x cfg ⟨s, some p, true, m, lost⟩ ⟨s, none, true, m, lost⟩
  | prepare {fs fs' l g c m lost} {a : Act} {k : a.Ans → _} {r} (h : a.Perform fs r fs')
      (hcancel : CancelRead c a r) :
      Step x cfg ⟨⟨⟨fs, l⟩, g⟩, some (.act a k), c, m, lost⟩ ⟨⟨⟨fs', l⟩, g⟩, some (k r), c, m, lost⟩
  | prepareUnwind {fs l g q c m lost} (r : InodeRef) :
      Step x cfg ⟨⟨⟨fs, l⟩, g⟩, some (.panic q), c, m, lost⟩
        ⟨⟨⟨(reference (.dropRef r) fs).2, l⟩, g⟩, some (.panic q), c, m, lost⟩

/-- **The states of a session** without a transfer of the state, from INIT on. -/
inductive Reachable (x : Export) (cfg : Config) : VhostUserFsBackend → Prop where
  | init {w₀ w : World} {guestFdLimit : Nat} {dentryIndex : Bool} {capable opts : FsOptions}
      (hfresh : w₀.fs = initial guestFdLimit dentryIndex)
      (h : (init cfg capable).run World.performSession w₀ = (.ok opts, w)) :
      Reachable x cfg ⟨⟨⟨w.fs, []⟩, initialRefs⟩, none, false, false, 0⟩
  | step {b b' : VhostUserFsBackend} (hb : Reachable x cfg b) (h : Step x cfg b b') :
      Reachable x cfg b'

/-- **No trace of a migration**: no inode but the root has an info, lookups attach none, every
refcount is what the guest holds, and an inode is gone when the guest has forgotten all of it. -/
structure NoTrace (b : VhostUserFsBackend) : Prop where
  infos : ∀ i c, i ≠ ROOT_ID → b.fs.inodes.cell? i = some c → c.migrationInfo = none
  lookups : b.fs.flags .trackMigrationInfo = false
  refcounts : ∀ i, b.fs.inodes.refcount i = b.system.guest.count i
  forgotten : ∀ i, (b.fs.inodes.forgetOne i (b.system.guest.count i)).contains i = false

end VhostUserFsBackend

/-! ## 2. Nobody stops tracking -/

/-- Everything but the end of a migration. -/
def Act.GoesOnTracking (a : Act) : Prop :=
  a ≠ .neutral (.query (.store .trackMigrationInfo false))

abbrev Tracking {α : Type} (p : FsM α) : Prop :=
  Keeps Act.GoesOnTracking (fun _ _ => True) p fun _ => True

theorem tracking_parts : JobParts fun {α : Type} (p : FsM α) => Tracking p := by
  have hquery : ∀ q : Query, (∀ v, q ≠ .store .trackMigrationInfo v) →
      Tracking (liftM (query q) : FsM q.Ans) := by
    intro q hq
    refine Obeys.perform (a := Act.neutral (.query q)) fun h => ?_
    cases h
    exact hq false rfl
  have hrefAct : ∀ r : RefAct, Tracking (refAct r) := fun r =>
    Obeys.perform (a := Act.ref r) nofun
  have hhost : ∀ c, Tracking (liftM (host c) : FsM c.Ans) := fun c =>
    Obeys.perform (a := Act.neutral (.host c)) nofun
  refine OffIndexParts.jobs ?_ hhost (fun op => hquery (.dentry op) nofun)
    (fun i n => hrefAct (.forgetOne i n)) fun l => hrefAct (.forgetMany l)
  exact .of_actions (Keeps.compositional _ _) (fun _ => Keeps.panic)
    (fun c _ => hhost c)
    (fun q hq => hquery q (by rintro v rfl; exact hq)) (hquery .fetchAddInode nofun)
    (hquery .fetchAddHandle nofun) (fun handle data => hquery (.insertHandle handle data) nofun)
    (fun r _ => hrefAct r) fun data info => hrefAct (.getOrInsert data info)

theorem prepare_tracking (x : Export) (cfg : Config) (fuel : Nat) :
    Tracking (Job.prog x cfg (.prepare fuel)) := by
  have hstore : Tracking (liftM (query (.store .trackMigrationInfo true)) : FsM Unit) :=
    Obeys.perform (a := Act.neutral (.query (.store .trackMigrationInfo true))) nofun
  exact tracking_parts.bind (tracking_parts.prepareSerialization fuel hstore) fun _ =>
    tracking_parts.ret _

/-- Once set, the flag stays set. -/
theorem tracks_of_perform {a : Act} {fs fs' : PassthroughFs} {r : a.Ans}
    (ha : a.GoesOnTracking) (h : a.Perform fs r fs')
    (ht : fs.flags .trackMigrationInfo = true) : fs'.flags .trackMigrationInfo = true := by
  rcases a with (c | q) | ref
  · obtain rfl := h
    exact ht
  · obtain rfl : (answer q fs).2 = fs' := congrArg Prod.snd h
    by_cases hstore : ∃ v, q = .store .trackMigrationInfo v
    · obtain ⟨v, rfl⟩ := hstore
      cases v with
      | true => exact Function.update_self FsFlag.trackMigrationInfo true fs.flags
      | false => exact absurd rfl ha
    · exact (answer_flags q fs fun v hv => hstore ⟨v, hv⟩).trans ht
  · obtain rfl : (reference ref fs).2 = fs' := congrArg Prod.snd h
    cases ref <;> exact ht

/-! ## 3. Without tracking -/

/-- No info, or one of the root's that refers to nothing. -/
def Cell.Plain (c : Cell) : Prop :=
  c.migrationInfo = none ∨ (c.data.inode = ROOT_ID ∧ infoParent c.migrationInfo = none)

/-- Nobody tracks migration infos, and there are none. -/
structure PassthroughFs.Untracked (fs : PassthroughFs) : Prop where
  off : fs.flags .trackMigrationInfo = false
  plain : ∀ c ∈ fs.inodes.cells, c.Plain

/-- Actions that do not start tracking, and put no info into an inode but the root. -/
def Act.Untracked : Act → Prop
  | .neutral (.query (.store .trackMigrationInfo v)) => v = false
  | .ref (.getOrInsert _ info) => info = none
  | .ref (.exchangeInfo r info) =>
    info = none ∨ (r.data.inode = ROOT_ID ∧ infoParent info = none)
  | _ => True

/-- What they find out then. -/
def Act.UntrackedAns : (a : Act) → a.Ans → Prop
  | .neutral (.query (.load .trackMigrationInfo)), v => v = false
  | .ref (.exchangeInfo r _), old =>
    old = none ∨ (r.data.inode = ROOT_ID ∧ infoParent old = none)
  | _, _ => True

theorem InodeStoreInner.Kept.plain {s s' : InodeStoreInner} (h : Kept s s')
    (hs : ∀ c ∈ s.cells, c.Plain) : ∀ c ∈ s'.cells, c.Plain := by
  intro d hd
  obtain ⟨a, ha⟩ := List.mem_iff_getElem?.mp hd
  rcases h.info a d ha with hnone | ⟨c, hc, hinfo⟩
  · exact .inl hnone
  · obtain ⟨d', hd', hdata⟩ := h.cell a c hc
    obtain rfl : d = d' := Option.some.inj (ha.symm.trans hd')
    have hplain := hs c (List.mem_of_getElem? hc)
    unfold Cell.Plain at hplain ⊢
    rwa [hinfo, hdata]

/-- **An action that does not start tracking.** -/
theorem untracked_of_perform {a : Act} {fs fs' : PassthroughFs} {r : a.Ans} (ha : a.Untracked)
    (hfs : fs.Untracked) (h : a.Perform fs r fs') : a.UntrackedAns r ∧ fs'.Untracked := by
  have hedits : ∀ {s : InodeStoreInner}, Edits fs.inodes s → (fs.withInodes s).Untracked :=
    fun hs => ⟨hfs.off, hs.kept.plain hfs.plain⟩
  rcases a with (c | q) | ref
  · obtain rfl := h
    exact ⟨trivial, hfs⟩
  · have hanswer : r = (answer q fs).1 := (congrArg Prod.fst h).symm
    obtain rfl : (answer q fs).2 = fs' := congrArg Prod.snd h
    have hplain : ∀ c ∈ (answer q fs).2.inodes.cells, c.Plain := by
      rw [answer_inodes]
      exact hfs.plain
    have hoff : (answer q fs).2.flags .trackMigrationInfo = false := by
      by_cases hstore : ∃ v, q = .store .trackMigrationInfo v
      · obtain ⟨v, rfl⟩ := hstore
        obtain rfl : v = false := ha
        exact Function.update_self FsFlag.trackMigrationInfo false fs.flags
      · exact (answer_flags q fs fun v hv => hstore ⟨v, hv⟩).trans hfs.off
    refine ⟨?_, hoff, hplain⟩
    cases q with
    | load f =>
      cases f with
      | trackMigrationInfo => exact hanswer.trans hfs.off
      | _ => trivial
    | _ => trivial
  · have hanswer : r = (reference ref fs).1 := (congrArg Prod.fst h).symm
    obtain rfl : (reference ref fs).2 = fs' := congrArg Prod.snd h
    cases ref with
    | increment ref => exact ⟨trivial, hedits (.incrementRefcount _)⟩
    | claim handle ids => exact ⟨trivial, hedits (.claimInode handle ids)⟩
    | dropRef | forgetOne => exact ⟨trivial, hedits (.forgetOne .refl _ _)⟩
    | leak | adopt => exact ⟨trivial, hfs⟩
    | forgetMany l => exact ⟨trivial, hedits (.forgetMany _ .refl)⟩
    | clearMigrationInfo => exact ⟨trivial, hedits .clearMigrationInfo⟩
    | getOrInsert d info =>
      obtain rfl : info = none := ha
      refine ⟨trivial, hfs.off, ?_⟩
      show ∀ c ∈ (fs.inodes.getOrInsert d none).2.cells, c.Plain
      rcases getOrInsert_cases fs.inodes d none with ⟨ref, h, -⟩ | ⟨h, -⟩ | h | ⟨h, -, -⟩
      · rw [h]
        exact (Edits.claimInode _ _).kept.plain hfs.plain
      · rw [h]
        exact hfs.plain
      · rw [h]
        exact hfs.plain
      · rw [h]
        intro c hc
        rcases List.mem_append.mp hc with hc | hc
        · exact hfs.plain c hc
        · rw [List.mem_singleton.mp hc]
          exact .inl rfl
    | exchangeInfo ref info =>
      subst hanswer
      show (Act.UntrackedAns (.ref (.exchangeInfo ref info)) (fs.inodes.exchangeInfo ref info).1 ∧
        (fs.withInodes (fs.inodes.exchangeInfo ref info).2).Untracked)
      unfold exchangeInfo
      split
      · rename_i c hd
        obtain ⟨hc, hdata⟩ := deref_eq_some hd
        refine ⟨?_, hfs.off, fun d hd' => ?_⟩
        · rcases hfs.plain c (List.mem_of_getElem? hc) with hnone | ⟨hroot, hparent⟩
          · exact .inl hnone
          · exact .inr ⟨hdata ▸ hroot, hparent⟩
        · rcases List.mem_or_eq_of_mem_set hd' with hd' | rfl
          · exact hfs.plain d hd'
          · rcases ha with rfl | ⟨hroot, hparent⟩
            · exact .inl rfl
            · exact .inr ⟨hdata ▸ hroot, hparent⟩
      · exact ⟨ha, hedits .refl⟩

/-- A program that attaches no info, while nobody tracks them. -/
abbrev AttachesNone {α : Type} (p : FsM α) : Prop :=
  Keeps Act.Untracked Act.UntrackedAns p fun _ => True

theorem AttachesNone.compositional :
    Compositional fun {α : Type} (p : FsM α) => AttachesNone p :=
  Keeps.compositional _ _

theorem act_attachesNone (a : Act) (h : a.Untracked) :
    AttachesNone (Prog.perform a : FsM a.Ans) :=
  (Obeys.perform h).mono fun _ _ => trivial

theorem query_attachesNone (q : Query) (hq : ∀ v, q ≠ .store .trackMigrationInfo v) :
    AttachesNone (liftM (query q) : FsM q.Ans) := by
  refine act_attachesNone (.neutral (.query q)) ?_
  cases q with
  | store f v =>
    cases f with
    | trackMigrationInfo => exact absurd rfl (hq v)
    | _ => trivial
  | _ => trivial

theorem host_attachesNone (c : HostCall) : AttachesNone (liftM (host c) : FsM c.Ans) :=
  act_attachesNone (.neutral (.host c)) trivial

theorem dropRef_attachesNone (r : InodeRef) : AttachesNone (StrongInodeReference.drop r) :=
  act_attachesNone (.ref (.dropRef r)) trivial

theorem files_attachNone (cfg : Config) :
    FileParts cfg .offGuest fun {α : Type} (p : NeutralM α) => AttachesNone (liftM p : FsM α) := by
  have hn := AttachesNone.compositional.comap Act.neutral (fun _ r => r) PanicSite.here
  refine fileParts_of_panics hn (fun q => Keeps.panic) (fun c _ => host_attachesNone c)
    (fun q hq => query_attachesNone q (by rintro v rfl; exact hq)) fun inode fd type flags => ?_
  refine hn.bind (query_attachesNone .fetchAddHandle nofun) fun handle => ?_
  refine hn.bind (hn.bind (query_attachesNone .allocateFd nofun) fun ok => ?_) fun _ => ?_
  · cases ok with
    | true => exact hn.ret ()
    | false => exact hn.err _
  · exact hn.bind (query_attachesNone (.insertHandle handle _) nofun) fun _ => hn.ret handle

/-- While nobody tracks them, a new inode gets no info. -/
theorem insertInode_attachesNone (cfg : Config) (p : InodeRef) (name : Name) (pathFd : Fd)
    (st : StatExt) (handle : Option FileHandle) :
    AttachesNone (insertInode cfg p name pathFd st handle) := by
  have h := AttachesNone.compositional
  have hfiles := files_attachNone cfg
  refine h.bind (hfiles.newFileOrHandle pathFd handle) fun f => ?_
  have hinfo : Keeps Act.Untracked Act.UntrackedAns (newMigrationInfo cfg p name f)
      fun info => info = none := by
    refine Obeys.act (a := Act.neutral (.query (.load .trackMigrationInfo))) trivial
      fun track ht => ?_
    obtain rfl : track = false := ht
    exact Obeys.ret rfl
  refine Obeys.bind (hinfo.onErr (hfiles.dropFile f)) fun info hnone => ?_
  subst hnone
  refine h.bind (query_attachesNone .fetchAddInode nofun) fun inode => ?_
  refine h.bind (act_attachesNone (.ref (.getOrInsert ⟨inode, f, st.ids, st.st.mode⟩ none)) rfl)
    fun result => ?_
  cases result with
  | inserted r => exact h.ret r
  | found r => exact h.bind (hfiles.dropFile f) fun _ => h.ret r
  | doubleUse => exact h.bind (hfiles.dropFile f) fun _ => h.err _
  | dangling => exact Keeps.panic

/-- The root keeps its info, and no other inode has one. -/
theorem afterInvalidatingPath_attachesNone (cfg : Config) (r : InodeRef) :
    AttachesNone (afterInvalidatingPath cfg r) := by
  have h := AttachesNone.compositional
  have hunlock := h.bind (query_attachesNone (.unlockInfo r) nofun) fun _ => dropRef_attachesNone r
  refine h.bind (query_attachesNone (.lockInfo r) nofun) fun _ => ?_
  refine Obeys.act (a := Act.ref (.exchangeInfo r none)) (.inl rfl) fun old hold => ?_
  cases old with
  | none => exact hunlock
  | some info =>
    obtain ⟨hroot, hparent⟩ := hold.resolve_left nofun
    have hpath : info.hasPath = false := by
      rcases info with ⟨_ | _ | _, _⟩ <;> first | rfl | cases hparent
    show AttachesNone ((if info.hasPath = true then _ else _ : FsM Unit))
    rw [if_neg (by rw [hpath]; exact nofun)]
    refine h.bind ?_ fun _ => hunlock
    refine Obeys.act (a := Act.ref (.exchangeInfo r (some info))) (.inr ⟨hroot, hparent⟩)
      fun old hold => ?_
    show AttachesNone (dropInfo old)
    have hnone : infoParent old = none := by
      rcases hold with rfl | ⟨-, hparent⟩
      · rfl
      · exact hparent
    unfold dropInfo
    rw [hnone]
    exact h.ret ()

theorem requests_attachNone (cfg : Config) :
    RequestParts cfg fun {α : Type} (p : FsM α) => AttachesNone p := by
  have h := AttachesNone.compositional
  have hclaims : ClaimParts cfg .offGuest fun {α : Type} (p : FsM α) => AttachesNone p := by
    refine ⟨h, files_attachNone cfg, fun r hr => ?_, fun handle ids => ?_,
      insertInode_attachesNone cfg⟩
    · refine act_attachesNone (.ref r) ?_
      cases r <;> trivial
    · refine h.bind (act_attachesNone (.ref (.claim handle ids)) trivial) fun found => ?_
      cases found with
      | found | notFound => exact h.ret _
      | dangling => exact Keeps.panic
  have hlookups : LookupParts cfg .offGuest fun {α : Type} (p : FsM α) => AttachesNone p :=
    ⟨hclaims, fun op => query_attachesNone (.dentry op) nofun⟩
  refine ⟨hlookups, fun parent name => ?_, afterInvalidatingPath_attachesNone cfg,
    fun i n => hlookups.forget (act_attachesNone (.ref (.forgetOne i n)) trivial),
    fun l => hlookups.batchForget (act_attachesNone (.ref (.forgetMany l)) trivial)⟩
  refine Obeys.act (a := Act.neutral (.query (.load .trackMigrationInfo))) trivial
    fun track ht => ?_
  obtain rfl : track = false := ht
  exact h.ret ()

theorem request_attachesNone (x : Export) (cfg : Config) (r : Request) (hr : r.OverChain) :
    AttachesNone (x.serve cfg r) :=
  (requests_attachNone cfg).request (fun _ => Keeps.panic) host_attachesNone x r hr

/-- The same for the actions of INIT. -/
def SessionAct.Untracked : SessionAct → Prop
  | .act a => a.Untracked
  | .newInode c => c.Plain
  | _ => True

def SessionAct.UntrackedAns : (a : SessionAct) → a.Ans → Prop
  | .act a, r => a.UntrackedAns r
  | _, _ => True

theorem sessions_attachNone : SessionParts .offGuest fun {α : Type} (p : SessionM α) =>
    Keeps SessionAct.Untracked SessionAct.UntrackedAns p fun _ => True := by
  have hact : ∀ a : SessionAct, a.Untracked →
      Keeps SessionAct.Untracked SessionAct.UntrackedAns (sessionAct a) fun _ => True :=
    fun a ha => (Obeys.perform ha).mono fun _ _ => trivial
  have hlift : ∀ {α : Type} {p : FsM α}, AttachesNone p →
      Keeps SessionAct.Untracked SessionAct.UntrackedAns (liftM p : SessionM α) fun _ => True :=
    fun hp => hp.mapAct (fun _ ha => ha) fun _ _ hr => hr
  refine ⟨Keeps.compositional _ _, fun cfg => ?_, fun f v hf => ?_, ?_, hact .clear trivial,
    fun c hc hinfo => hact (.newInode c) (.inr ⟨hc, hinfo⟩)⟩
  · have hW : Compositional fun {α : Type} (p : SessionM α) =>
        Keeps SessionAct.Untracked SessionAct.UntrackedAns p fun _ => True :=
      Keeps.compositional _ _
    have hfiles := files_attachNone cfg
    exact fileParts_of_panics ((hW.comap SessionAct.act (fun _ r => r) id).comap Act.neutral
      (fun _ r => r) PanicSite.here) (fun q => Keeps.panic) (fun c hc => hlift (hfiles.host c hc))
      (fun q hq => hlift (hfiles.query q hq)) fun inode fd type flags =>
        hlift (hfiles.newHandle inode fd type flags)
  · refine hlift (query_attachesNone (.store f v) fun v' h => ?_)
    cases h
    exact hf rfl
  · exact hlift (query_attachesNone .clearHandles nofun)

/-- **After INIT nobody tracks migration infos.** -/
theorem untracked_of_init {cfg : Config} {w₀ w : World} {guestFdLimit : Nat} {dentryIndex : Bool}
    {capable opts : FsOptions} (hfresh : w₀.fs = initial guestFdLimit dentryIndex)
    (h : (init cfg capable).run World.performSession w₀ = (.ok opts, w)) :
    w.fs.Untracked := by
  have hstart : w₀.fs.Untracked := by
    rw [hfresh]
    exact ⟨rfl, fun c hc => absurd hc List.not_mem_nil⟩
  have hinit : Keeps SessionAct.Untracked SessionAct.UntrackedAns (init cfg capable)
      fun _ => True := sessions_attachNone.init capable
  have hrun := Obeys.run (h := World.performSession) (I := fun w : World => w.fs.Untracked)
    hinit (fun a w ha hw => ?_) hstart
  · rw [h] at hrun
    exact hrun.2
  · cases a with
    | act a => exact untracked_of_perform ha hw (w.perform_spec a)
    | clear => exact ⟨trivial, hw.off, fun c hc => absurd hc List.not_mem_nil⟩
    | newInode c =>
      refine ⟨trivial, ?_⟩
      simp only [World.performSession, newInode]
      split
      · rename_i s hs
        split at hs
        · cases hs
        · cases hs
          refine ⟨hw.off, fun d hd => ?_⟩
          rcases List.mem_append.mp hd with hd | hd
          · exact hw.plain d hd
          · rw [List.mem_singleton.mp hd]
            exact ha
      · exact hw
    | storeRefcount r n => exact ⟨trivial, hw.off, (storeRefcount_kept r n).plain hw.plain⟩

/-! ## 4. Runs -/

namespace VhostUserFsBackend

variable {x : Export} {cfg : Config} {b b' : VhostUserFsBackend}

/-- The preparation owes the flag. -/
def trackDuty : Duties Act Act.Ans Unit where
  takes _ := ∅
  settles a _ := {_u | a = .neutral (.query (.store .trackMigrationInfo true))}
  may _ _ := True

/-- What holds while `F_LOG_ALL` was never set. -/
structure Unprepared (b : VhostUserFsBackend) : Prop where
  premigration : b.premigration = none
  untracked : b.fs.Untracked
  attachNone : ∀ t ∈ b.system.pool.threads, AttachesNone t.1
  accounted : b.system.AccountedFor b.lost

/-- **What every run keeps**: the flag is set when the preparation is over, and stays so. -/
structure Tracked (b : VhostUserFsBackend) : Prop where
  threads : ∀ t ∈ b.system.pool.threads, Tracking t.1
  premigration : ∀ p, b.premigration = some p → Tracking p ∧
    (b.fs.flags .trackMigrationInfo = true ∨ trackDuty.WillSettle () p)
  prepared : b.prepared = true → b.premigration = none → b.fs.flags .trackMigrationInfo = true
  unprepared : b.prepared = false → b.Unprepared

theorem Tracked.prepared_of_some (h : b.Tracked) {p : FsM Reply} (hp : b.premigration = some p) :
    b.prepared = true := by
  by_contra hnot
  have hnone := (h.unprepared (Bool.eq_false_iff.mpr hnot)).premigration
  rw [hp] at hnone
  cases hnone

/-- The steps of the threads that serve requests. -/
theorem Tracked.of_threads (h : b.Tracked) {s : System} {lost : Multiset Ref}
    (hthreads : ∀ t ∈ s.pool.threads, Tracking t.1)
    (hflag : b.fs.flags .trackMigrationInfo = true →
      s.pool.shared.flags .trackMigrationInfo = true)
    (hunprepared : b.Unprepared → s.pool.shared.Untracked ∧
      (∀ t ∈ s.pool.threads, AttachesNone t.1) ∧ s.AccountedFor lost) :
    Tracked ⟨s, b.premigration, b.cancel, b.prepared, lost⟩ := by
  refine ⟨hthreads, fun p hp => ?_, fun hprepared hnone => hflag (h.prepared hprepared hnone),
    fun hnot => ?_⟩
  · obtain ⟨htracking, hwill⟩ := h.premigration p hp
    exact ⟨htracking, hwill.imp_left hflag⟩
  · have hb := h.unprepared hnot
    obtain ⟨huntracked, hattach, haccounted⟩ := hunprepared hb
    exact ⟨hb.premigration, huntracked, hattach, haccounted⟩

/-- The steps of the thread that prepares a migration. -/
theorem Tracked.of_premigration (h : b.Tracked) {p p' : FsM Reply} {fs : PassthroughFs}
    {cancel : Bool} (hp : b.premigration = some p) (htracking : Tracking p')
    (hflag : b.fs.flags .trackMigrationInfo = true → fs.flags .trackMigrationInfo = true)
    (hwill : trackDuty.WillSettle () p → fs.flags .trackMigrationInfo = true ∨
      trackDuty.WillSettle () p') :
    Tracked ⟨⟨⟨fs, b.system.pool.threads⟩, b.system.guest⟩, some p', cancel, b.prepared,
      b.lost⟩ := by
  have hprepared := h.prepared_of_some hp
  refine ⟨h.threads, ?_, fun _ hnone => (nomatch hnone), fun hnot => ?_⟩
  · rintro _ ⟨rfl⟩
    refine ⟨htracking, ?_⟩
    rcases (h.premigration p hp).2 with hset | hset
    · exact .inl (hflag hset)
    · exact hwill hset
  · rw [hprepared] at hnot
    cases hnot

theorem Tracked.step (h : b.Tracked) (hstep : Step x cfg b b') : b'.Tracked := by
  cases hstep with
  | request r hr hheld =>
    refine h.of_threads ?_ id fun hb => ⟨hb.untracked, ?_, ?_⟩
    · exact List.forall_mem_cons.mpr ⟨tracking_parts.request x cfg r hr, h.threads⟩
    · exact List.forall_mem_cons.mpr ⟨request_attachesNone x cfg r hr, hb.attachNone⟩
    · exact hb.accounted.start (.request r) hheld
  | act hact =>
    obtain ⟨hperform⟩ := hact
    rename_i fs fs' l₁ l₂ a k τ r
    have hact := h.threads (.act a k, τ) (by simp)
    refine h.of_threads (forall_mem_replace h.threads (hact.2 r () trivial))
      (tracks_of_perform hact.1 hperform) fun hb => ?_
    have hnone := hb.attachNone (.act a k, τ) (by simp)
    obtain ⟨hans, huntracked⟩ := untracked_of_perform hnone.1 hb.untracked hperform
    exact ⟨huntracked, forall_mem_replace hb.attachNone (hnone.2 r () hans),
      Pool.Step.ok owned_of_perform (.act hperform) hb.accounted⟩
  | reply =>
    refine h.of_threads (forall_mem_remove h.threads) id fun hb => ?_
    exact ⟨hb.untracked, forall_mem_remove hb.attachNone, hb.accounted.reply⟩
  | fail | died =>
    refine h.of_threads (forall_mem_remove h.threads) id fun hb => ?_
    exact ⟨hb.untracked, forall_mem_remove hb.attachNone, hb.accounted.lose⟩
  | unwind =>
    refine h.of_threads (forall_mem_replace h.threads Keeps.panic) id fun hb => ?_
    refine ⟨?_, forall_mem_replace hb.attachNone Keeps.panic, hb.accounted.unwind⟩
    exact ⟨hb.untracked.off, (Edits.refl.forgetOne _ _).kept.plain hb.untracked.plain⟩
  | setLogAll fuel =>
    refine ⟨h.threads, ?_, fun _ hnone => (nomatch hnone), fun hnot => (nomatch hnot)⟩
    rintro _ ⟨rfl⟩
    refine ⟨prepare_tracking x cfg fuel, .inr fun _ _ => .inr fun _ _ => .inl rfl⟩
  | setLogAllAgain => exact h
  | clearLogAll =>
    exact h.of_premigration rfl (h.premigration _ rfl).1 id .inr
  | @join s m lost p hend =>
    have hset : s.pool.shared.flags .trackMigrationInfo = true := by
      refine (h.premigration p rfl).2.resolve_right fun hwill => ?_
      cases p with
      | act a k => exact hend a k rfl
      | _ => exact hwill
    refine ⟨h.threads, fun _ hp => (nomatch hp), fun _ _ => hset, fun hnot => ?_⟩
    cases (h.prepared_of_some rfl).symm.trans hnot
  | @prepare fs fs' l g c m lost a k r hperform _ =>
    have hp := (h.premigration _ rfl).1
    refine h.of_premigration rfl (hp.2 r () trivial) (tracks_of_perform hp.1 hperform)
      fun hwill => ?_
    refine (hwill r trivial).imp_left fun (hstore : a = _) => ?_
    subst hstore
    obtain rfl : (answer (.store .trackMigrationInfo true) fs).2 = fs' :=
      congrArg Prod.snd hperform
    exact Function.update_self FsFlag.trackMigrationInfo true fs.flags
  | prepareUnwind r => exact h.of_premigration rfl Keeps.panic id fun hwill => hwill.elim

theorem Reachable.tracked (h : Reachable x cfg b) : b.Tracked := by
  induction h with
  | init hfresh hrun =>
    refine ⟨fun t ht => absurd ht List.not_mem_nil, nofun, nofun, fun _ => ?_⟩
    exact ⟨rfl, untracked_of_init hfresh hrun, fun t ht => absurd ht List.not_mem_nil,
      accounted_init hrun⟩
  | step _ hstep ih => exact ih.step hstep

/-! ## 5. A cancelled migration -/

/-- Without infos there are no references in the store. -/
theorem strongRefs_of_plain {s : InodeStoreInner} (h : ∀ c ∈ s.cells, c.Plain) :
    s.strongRefs = 0 := by
  refine List.sum_eq_zero fun refs hrefs => ?_
  obtain ⟨c, hc, rfl⟩ := List.mem_map.mp hrefs
  rcases h c hc with hnone | ⟨-, hparent⟩
  · rw [hnone]
    rfl
  · rcases c with ⟨_, _, _ | ⟨_ | _ | _, _⟩⟩ <;> first | rfl | cases hparent

/-- An inode is gone when as much was forgotten of it as was held. -/
theorem contains_forgetOne_self {s : InodeStoreInner} {i : Inode} {count : Nat}
    (hwf : s.WellFormed) (h : s.refcount i ≤ count) : (s.forgetOne i count).contains i = false := by
  obtain ⟨gone, hr⟩ := Stored.forgetOne hwf.stored i count
  generalize s.forgetOne i count = s' at hr ⊢
  rw [contains, Option.isSome_eq_false_iff, Option.isNone_iff_eq_none]
  cases hr with
  | absent hl => exact hl
  | stays hl hc hpos =>
    rw [refcount_eq hl hc] at h
    omega
  | leaves hl hc _ _ => rw [lookup_removed hwf.stored hl hc, if_pos rfl]
  | cascades hl hc _ _ hrest =>
    -- the cascade enters nothing
    refine Option.eq_none_iff_forall_ne_some.mpr fun a ha => ?_
    have hold := hrest.lookup (Stored.removed hwf.stored hl hc) ha
    exact (of_lookup_removed hwf.stored hl hc hold).1 rfl

/-- **Nothing of a migration**, if there was none. -/
theorem Unprepared.refcount (h : b.Unprepared) (hidle : b.system.pool.threads = []) (i : Inode) :
    b.fs.inodes.refcount i = b.system.guest.count i + (b.lost.map Ref.inode).count i := by
  have howned := h.accounted.inv
  have htokens : b.system.pool.tokens = 0 := by
    rw [Pool.tokens, hidle]
    rfl
  rw [htokens, add_zero] at howned
  rw [howned.balanced.refcount_eq, strongRefs_of_plain h.untracked.plain, add_zero,
    Multiset.map_add, Multiset.count_add, map_inode_guestRefs]

/-- **A cancelled migration leaves no trace only if there was none.**  When `acked_features` has
returned and no request is in progress, there is no trace of a migration exactly if `F_LOG_ALL`
was never set, and no CREATE has left a lookup behind. -/
theorem noTrace_iff (h : Reachable x cfg b) (hjoined : b.premigration = none)
    (hidle : b.system.pool.threads = []) :
    b.NoTrace ↔ b.prepared = false ∧ b.lost = 0 := by
  have htracked := h.tracked
  constructor
  · intro htrace
    have hnot : b.prepared = false := by
      by_contra hprepared
      have hset := htracked.prepared (Bool.eq_true_of_not_eq_false hprepared) hjoined
      rw [htrace.lookups] at hset
      cases hset
    refine ⟨hnot, ?_⟩
    have hlost : ∀ i, (b.lost.map Ref.inode).count i = 0 := by
      intro i
      have hcount := (htracked.unprepared hnot).refcount hidle i
      rw [htrace.refcounts i] at hcount
      omega
    exact Multiset.map_eq_zero.mp (Multiset.eq_zero_of_forall_notMem fun i =>
      Multiset.count_eq_zero.mp (hlost i))
  · rintro ⟨hnot, hlost⟩
    have hb := htracked.unprepared hnot
    have hcount : ∀ i, b.fs.inodes.refcount i = b.system.guest.count i := by
      intro i
      rw [hb.refcount hidle i, hlost]
      simp
    have hwf := hb.accounted.inv.wellFormed
    refine ⟨fun i c hi hc => ?_, hb.untracked.off, hcount, fun i => ?_⟩
    · obtain ⟨a, ha, hc⟩ := Option.bind_eq_some_iff.mp hc
      obtain ⟨c', hc', hid⟩ := hwf.stored i a ha
      obtain rfl : c = c' := Option.some.inj (hc.symm.trans hc')
      refine (hb.untracked.plain c (List.mem_of_getElem? hc)).resolve_right fun hroot => ?_
      exact hi (hid.symm.trans hroot.1)
    · exact contains_forgetOne_self hwf (hcount i).le

/-- A host with the shared directory at `/x`, and the file `a` in it. -/
def procHost : Host
  | .getPath fd => .ok (if fd = 3 then [0x2f, 0x78] else [0x2f, 0x78, 0x2f, 0x61])
  | .statx fd name => .ok (if fd = 3 ∧ name = none then ⟨dirStat, 1⟩ else ⟨regStat, 1⟩)
  | c => obligingHost 0 c

/-- What an action does for a thread that runs alone, with its references. -/
def performAlone (a : Act) (s : Multiset Ref × PassthroughFs) :
    a.Ans × (Multiset Ref × PassthroughFs) :=
  let r := World.perform a ⟨s.2, fun _ => procHost, 0⟩
  (r.1, refTokens.after a r.1 s.1, r.2.fs)

variable {fs fs' : PassthroughFs} {g : Multiset Inode} {pre : Option (FsM Reply)}
  {c m : Bool} {lost : Multiset Ref}

/-- **One request after the other.** -/
theorem reachable_request (r : Request) (hchain : r.OverChain) (hheld : r.forgets ≤ g) {n : Nat}
    {reply : Reply} {τ : Multiset Ref}
    (h : Reachable x cfg ⟨⟨⟨fs, []⟩, g⟩, pre, c, m, lost⟩)
    (hr : (x.serve cfg r).advance performAlone n (guestRefs r.forgets, fs) =
      (.ret reply, τ, fs')) :
    Reachable x cfg ⟨⟨⟨fs', []⟩, g - r.forgets + reply.granted⟩, pre, c, m, lost⟩ := by
  have hend := Prog.advance_keeps performAlone (I := fun p s => Reachable x cfg
      ⟨⟨⟨s.2, [(p, s.1)]⟩, g - r.forgets⟩, pre, c, m, lost⟩)
    (fun a k s hs => hs.step (.act ?_)) n hr (h.step (.request r hchain hheld))
  · exact hend.step (@Step.reply x cfg fs' [] [] τ _ pre c m lost reply)
  · exact @Pool.Step.act _ _ _ _ _ _ _ _ refTokens Act.Perform _ _ [] [] a k s.1 _
      (World.perform_spec a ⟨s.2, fun _ => procHost, 0⟩)

/-- The preparation, while nobody else does anything. -/
theorem reachable_prepare (n : Nat) (p : FsM Reply) {τ τ' : Multiset Ref} {p' : FsM Reply}
    (hr : p.advance performAlone n (τ, fs) = (p', τ', fs'))
    (h : Reachable x cfg ⟨⟨⟨fs, []⟩, g⟩, some p, false, m, lost⟩) :
    Reachable x cfg ⟨⟨⟨fs', []⟩, g⟩, some p', false, m, lost⟩ := by
  refine Prog.advance_keeps performAlone (I := fun p s => Reachable x cfg
      ⟨⟨⟨s.2, []⟩, g⟩, some p, false, m, lost⟩) (fun a k s hs => ?_) n hr h
  refine hs.step (.prepare (World.perform_spec a ⟨s.2, fun _ => procHost, 0⟩) ?_)
  unfold CancelRead
  split
  · rfl
  · trivial

/-- A LOOKUP of `a`, right after INIT. -/
def lookingUp : FsM Reply × (Multiset Ref × PassthroughFs) :=
  (Export.readWrite.serve Config.default (.lookup ROOT_ID [0x61])).advance performAlone 30
    (0, (initLedger 9).world.fs)

/-- Then a migration is prepared, to the end. -/
def preparingAlone : FsM Reply × (Multiset Ref × PassthroughFs) :=
  (Job.prog .readWrite Config.default (.prepare 9)).advance performAlone 200
    (0, lookingUp.2.2)

/-- And cancelled. -/
def cancelled : VhostUserFsBackend :=
  ⟨⟨⟨preparingAlone.2.2, []⟩, initialRefs + {2}⟩, none, true, true, 0⟩

theorem reachable_afterInit : Reachable .readWrite Config.default
    ⟨⟨⟨(initLedger 9).world.fs, []⟩, initialRefs⟩, none, false, false, 0⟩ :=
  .init (rfl : (freshWorld 9).fs = initial 9 false)
    (show (init Config.default 0).run World.performSession (freshWorld 9) =
      (.ok 0x6000, (initLedger 9).world) from rfl)

theorem reachable_cancelled : Reachable .readWrite Config.default cancelled := by
  have hlookup : ∃ reply, lookingUp.1 = .ret reply ∧ reply.granted = {2} := ⟨_, rfl, rfl⟩
  obtain ⟨reply, hreply, hgranted⟩ := hlookup
  have hlooked : Reachable .readWrite Config.default
      ⟨⟨⟨lookingUp.2.2, []⟩, initialRefs + {2}⟩, none, false, false, 0⟩ := by
    rw [← hgranted]
    exact reachable_request (.lookup ROOT_ID [0x61]) trivial (Multiset.zero_le _)
      reachable_afterInit (Prod.ext hreply rfl)
  have hprepare : ∃ reply, preparingAlone.1 = .ret reply := ⟨_, rfl⟩
  obtain ⟨reply', hend⟩ := hprepare
  have hprepared := reachable_prepare 200 _
    (Prod.ext hend rfl : preparingAlone = (.ret reply', preparingAlone.2.1, preparingAlone.2.2))
    (hlooked.step (.setLogAll 9))
  exact (hprepared.step .clearLogAll).step (.join nofun)

/-- Before any migration there is no trace. -/
theorem noTrace_iff_init :
    NoTrace ⟨⟨⟨(initLedger 9).world.fs, []⟩, initialRefs⟩, none, false, false, 0⟩ :=
  (noTrace_iff reachable_afterInit rfl rfl).mpr ⟨rfl, rfl⟩

/-- **A migration that was cancelled**: `a` still has its info, lookups go on attaching infos, and
the root has three references where the guest holds two.  It stays when the guest has forgotten
both. -/
theorem cancelled_migration_leaves_traces :
    Reachable .readWrite Config.default cancelled ∧ cancelled.premigration = none ∧
      cancelled.system.pool.threads = [] ∧ cancelled.prepared = true ∧ cancelled.lost = 0 ∧
      (cancelled.fs.inodes.cell? 2).any (·.migrationInfo.isSome) = true ∧
      cancelled.fs.flags .trackMigrationInfo = true ∧
      cancelled.fs.inodes.refcount ROOT_ID = 3 ∧ cancelled.system.guest.count ROOT_ID = 2 ∧
      (cancelled.fs.inodes.forgetOne ROOT_ID 2).contains ROOT_ID = true ∧
      ¬ cancelled.NoTrace := by
  have hcount : cancelled.fs.inodes.refcount ROOT_ID = 3 := by decide +kernel
  refine ⟨reachable_cancelled, rfl, rfl, rfl, rfl, by decide +kernel, by decide +kernel, hcount,
    by decide +kernel, by decide +kernel, fun htrace => ?_⟩
  have hguest := htrace.refcounts ROOT_ID
  rw [hcount] at hguest
  exact absurd hguest (by decide +kernel)

end VhostUserFsBackend

end Virtiofsd
