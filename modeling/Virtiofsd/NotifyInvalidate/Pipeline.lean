/-
  # The pipeline from the watcher to the guest (`notify_invalidate/watcher.rs`, `mod.rs`)

  The watcher turns raw events into host events, and puts these into a BOUNDED channel; the
  translator thread takes them out, and sends notifications.  On the way events and
  notifications can be lost.  A loss is made up for by a bulk invalidation that starts later
  and of which every notification is sent; the watcher asks for one with an `Overflow` event.

  What is modelled is the pipeline as a state machine: the watcher's callback, the translator,
  the channel between them, the dentry index and the queues.  The `LossLedger` records the losses
  and the bulk invalidations that make up for them.

  Three losses make no one ask for a bulk invalidation: a notification that is not sent, a path
  that an event has too many, and an `Overflow` event for which there is no room.  As long as
  these happen only while another `Overflow` event is waiting, every loss is made up for.
-/
import Virtiofsd.Lib.Runs
import Virtiofsd.NotifyInvalidate.Translate

namespace Virtiofsd

open Lib

/-! ## 1. The watcher -/

/-- `RenameMode`. -/
inductive RenameMode where
  | any
  | to
  | from_
  | both
  | other
  deriving DecidableEq

/-- `EventKind` of the `notify` crate, as far as `classify` looks at it. -/
inductive RawEventKind where
  | any
  | access
  | create
  | modify
  | modifyName (mode : RenameMode)
  | remove
  | other
  deriving DecidableEq

/-- `Event` of the `notify` crate. -/
structure RawEvent where
  kind : RawEventKind
  paths : List HostPath

/-- `classify_rename`. -/
def classifyRename (mode : RenameMode) (paths : List HostPath) : HostEventKind :=
  match mode with
  | .both => .rename paths[0]? paths[1]?
  | .from_ => .rename paths[0]? none
  | .to => .rename none paths[0]?
  | _ => .rename paths[0]? paths[1]?

/-- `classify`. -/
def classify (event : RawEvent) : Option HostEventKind :=
  let path := event.paths[0]?
  match event.kind with
  | .create => path.map .create
  | .modifyName mode => some (classifyRename mode event.paths)
  | .modify => path.map .modify
  | .remove => path.map .remove
  | .access => none
  | .other => some .overflow
  | .any => path.map .modify

/-- The paths of the event that the host event has. -/
def HostEventKind.paths : HostEventKind → List HostPath
  | .modify path | .create path | .remove path => [path]
  | .rename src dst => src.toList ++ dst.toList
  | .overflow => []

/-- **The event loses paths, and no one is told**: it has none, or some that are left out.  No
path of an `Access` event is needed, and `Other` becomes an `Overflow` event. -/
def RawEvent.dropsPaths (event : RawEvent) : Bool :=
  match event.kind with
  | .access | .other => false
  | _ => event.paths.isEmpty || (classify event).map HostEventKind.paths != some event.paths

/-- `try_send`; the answer is whether there was room. -/
inductive WatchAct where
  | trySend (event : HostEvent)

abbrev WatchAct.Ans : WatchAct → Type
  | trySend _ => Bool

abbrev WatchM := Prog WatchAct WatchAct.Ans Empty Empty

def trySend (event : HostEvent) : WatchM Bool := Prog.perform (.trySend event)

/-- `try_send` of an `Overflow` event, whatever becomes of it. -/
def signalOverflow : WatchM Unit := do
  let _ ← trySend ⟨.overflow⟩
  return ()

/-- `try_send` of an event, and the signal if there is no room. -/
def offerEvent (kind : HostEventKind) : WatchM Unit := do
  if ← trySend ⟨kind⟩ then return () else signalOverflow

/-- **`handle_raw_event`**, on an event or a backend error. -/
def handleRawEvent (res : Except String RawEvent) : WatchM Unit :=
  match res with
  | .error _ => signalOverflow
  | .ok event =>
    match classify event with
    | some kind => offerEvent kind
    | none => return ()

/-! ## 2. Losses, and what makes up for them -/

/-- A bulk invalidation: how much had been lost when it started, and whether all its
notifications were sent. -/
structure Bulk where
  start : Nat
  clean : Bool
  deriving DecidableEq

/-- **The books**: how often something was lost, how many of these losses came before the
start of the last bulk invalidation that was sent completely, and the bulk invalidation in
progress. -/
structure LossLedger where
  losses : Nat
  covered : Nat
  bulk : Option Bulk

namespace LossLedger

def lose (l : LossLedger) : LossLedger := { l with losses := l.losses + 1 }

/-- A notification was not sent. -/
def fail (l : LossLedger) : LossLedger :=
  { l.lose with bulk := l.bulk.map fun k => { k with clean := false } }

def begin (l : LossLedger) : LossLedger := { l with bulk := some ⟨l.losses, true⟩ }

/-- The translator is done. -/
def settle (l : LossLedger) : LossLedger :=
  match l.bulk with
  | some ⟨start, true⟩ => { l with covered := start, bulk := none }
  | _ => { l with bulk := none }

/-- The losses that are covered have happened, also those that will be. -/
structure Ordered (l : LossLedger) : Prop where
  covered : l.covered ≤ l.losses
  bulk : ∀ k, l.bulk = some k → l.covered ≤ k.start ∧ k.start ≤ l.losses

variable {l : LossLedger}

theorem Ordered.lose (h : l.Ordered) : l.lose.Ordered where
  covered := Nat.le_succ_of_le h.covered
  bulk k hk := ⟨(h.bulk k hk).1, Nat.le_succ_of_le (h.bulk k hk).2⟩

theorem Ordered.fail (h : l.Ordered) : l.fail.Ordered where
  covered := Nat.le_succ_of_le h.covered
  bulk k hk := by
    obtain ⟨k', hk', rfl⟩ := Option.map_eq_some_iff.mp hk
    exact h.lose.bulk k' hk'

theorem Ordered.begin (h : l.Ordered) : l.begin.Ordered where
  covered := h.covered
  bulk k hk := by
    cases hk
    exact ⟨h.covered, le_rfl⟩

theorem settle_bulk (l : LossLedger) : l.settle.bulk = none := by
  unfold settle
  split <;> rfl

theorem settle_losses (l : LossLedger) : l.settle.losses = l.losses := by
  unfold settle
  split <;> rfl

theorem Ordered.settle (h : l.Ordered) : l.settle.Ordered where
  covered := by
    unfold LossLedger.settle
    split
    · rename_i start hbulk
      exact (h.bulk _ hbulk).2
    · exact h.covered
  bulk k hk := by rw [settle_bulk] at hk; cases hk

/-- What is not covered after a bulk invalidation was not covered before, and came too late. -/
theorem Ordered.of_settle (h : l.Ordered) (hlt : l.settle.covered < l.losses) :
    l.covered < l.losses ∧ l.bulk ≠ some ⟨l.losses, true⟩ := by
  unfold LossLedger.settle at hlt
  split at hlt
  · rename_i start hbulk
    refine ⟨lt_of_le_of_lt (h.bulk _ hbulk).1 hlt, fun heq => ?_⟩
    obtain rfl : start = l.losses := congrArg Bulk.start (Option.some.inj (hbulk.symm.trans heq))
    exact lt_irrefl _ hlt
  · rename_i hbulk
    exact ⟨hlt, fun heq => hbulk _ heq⟩

end LossLedger

/-! ## 3. The pipeline -/

def EVENT_CHANNEL_SIZE : Nat := 4096

/-- The length of `Notification::encode`: a header of 16 bytes, a body, and a name with its
terminator. -/
def Notification.encodedLen : Notification → Nat
  | .invalInode _ => 16 + 24
  | .invalEntry _ nm => 16 + 16 + nm.length + 1

/-- **The pipeline**, and what it shares with others: the index and the queues.  A callback of
the watcher and an event in the hands of the translator are programs in progress.  The last
field is not in the code. -/
structure Pipeline where
  index : DentryIndex
  backend : Backend
  channel : List HostEvent
  watcher : Option (WatchM Unit)
  translator : Option (TranslateM Unit)
  ledger : LossLedger

/-- What can happen; a callback and the translator take one step at a time. -/
inductive PipelineEvent where
  | raw (res : Except String RawEvent)
  | watch
  | recv
  | translate
  | dentry (op : DentryOp)
  | backend (b : Backend)

/-- **Something is lost** with the result: the events before an error, or paths. -/
def lossy : Except String RawEvent → Bool
  | .error _ => true
  | .ok event => event.kind = .other || event.dropsPaths

namespace Pipeline

/-- `spawn_pipeline`: the first thing to do is a bulk invalidation. -/
def start (t : Translator) (d : DentryIndex) (b : Backend) : Pipeline where
  index := d
  backend := b
  channel := []
  watcher := none
  translator := some t.bulkInvalidate
  ledger := ⟨0, 0, some ⟨0, true⟩⟩

/-- What the translator asks for. -/
def perform : (a : TranslateAct) → Pipeline → a.Ans × Pipeline
  | .resolvePath root path, p => (p.index.resolvePath root path, p)
  | .allInodes, p => (p.index.allInodes, p)
  | .send n, p =>
    match p.backend.send n.encodedLen with
    | (.ok (), b) => (.ok (), { p with backend := b })
    | (.error e, b) => (.error e, { p with backend := b, ledger := p.ledger.fail })

/-- A step of the watcher's callback. -/
def watch (p : Pipeline) : WatchM Unit → Pipeline
  | .act (.trySend event) k =>
    if p.channel.length < EVENT_CHANNEL_SIZE then
      { p with channel := p.channel ++ [event], watcher := some (k true) }
    else if event.kind = .overflow then { p with watcher := some (k false) }
    else { p with watcher := some (k false), ledger := p.ledger.lose }
  | _ => { p with watcher := none }

/-- The translator takes an event. -/
def recv (t : Translator) (p : Pipeline) (event : HostEvent) (rest : List HostEvent) : Pipeline :=
  { p with
    channel := rest
    translator := some (t.handle event)
    ledger := if event.kind = .overflow then p.ledger.begin else p.ledger }

/-- A step of the translator. -/
def translate (p : Pipeline) : TranslateM Unit → Pipeline
  | .act a k => { (perform a p).2 with translator := some (k (perform a p).1) }
  | _ => { p with translator := none, ledger := p.ledger.settle }

/-- **One step.**  The queues may change in any way. -/
def step (t : Translator) (p : Pipeline) : PipelineEvent → Option Pipeline
  | .raw res =>
    if p.watcher.isSome then none
    else some { p with
      watcher := some (handleRawEvent res)
      ledger := if lossy res then p.ledger.lose else p.ledger }
  | .watch => p.watcher.map p.watch
  | .recv =>
    match p.translator, p.channel with
    | none, event :: rest => some (p.recv t event rest)
    | _, _ => none
  | .translate => p.translator.map p.translate
  | .dentry op => some { p with index := p.index.apply op }
  | .backend b => some { p with backend := b }

/-- There is a buffer for `needed` bytes at the head of the notification queue. -/
def HasBuffer (b : Backend) (needed : Nat) : Prop :=
  b.notifier.enabled = true ∧ b.notifier.mem.isSome ∧
    ∃ ring chain rest have_, b.notifier.vring = some ring ∧ b.rings ring = chain :: rest ∧
      chain.writable = some have_ ∧ needed ≤ have_

/-- **Nothing is in progress**, and there are buffers. -/
structure Quiescent (p : Pipeline) : Prop where
  channel : p.channel = []
  translator : p.translator = none
  watcher : p.watcher = none
  buffers : HasBuffer p.backend 0

/-- An `Overflow` event is waiting. -/
def Waiting (p : Pipeline) : Prop := ⟨.overflow⟩ ∈ p.channel

/-- **What is lost in this step will be made up for**: someone will be told, or an `Overflow`
event is waiting. -/
def Careful (p : Pipeline) : PipelineEvent → Prop
  | .raw (.ok event) => event.dropsPaths = true → p.Waiting
  | .watch => ∀ k, p.watcher = some (.act (.trySend ⟨.overflow⟩) k) →
      p.channel.length < EVENT_CHANNEL_SIZE ∨ p.Waiting
  | .translate => ∀ n k, p.translator = some (.act (.send n) k) →
      HasBuffer p.backend n.encodedLen ∨ p.Waiting
  | _ => True

/-! ## 4. What is pending -/

variable {t : Translator} {p p' : Pipeline}

/-- What is left of a callback. -/
inductive Handling : WatchM Unit → Prop where
  | offer (kind : HostEventKind) : Handling (offerEvent kind)
  | signal : Handling signalOverflow
  | done : Handling (.ret ())

theorem handling_handleRawEvent (res : Except String RawEvent) : Handling (handleRawEvent res) := by
  unfold handleRawEvent
  cases res with
  | error e => exact .signal
  | ok event =>
    dsimp only
    cases classify event with
    | none => exact .done
    | some kind => exact .offer kind

/-- The callback is about to ask for a bulk invalidation. -/
def Signals (w : Option (WatchM Unit)) : Prop := ∃ k, w = some (.act (.trySend ⟨.overflow⟩) k)

theorem signals_signalOverflow : Signals (some signalOverflow) := ⟨_, rfl⟩

theorem signals_offerEvent : Signals (some (offerEvent .overflow)) := ⟨_, rfl⟩

/-- **Every loss that is not covered will be**: an `Overflow` event is waiting or about to be
sent, or a bulk invalidation that started later is going well. -/
structure Accounted (p : Pipeline) : Prop where
  handling : ∀ w, p.watcher = some w → Handling w
  idle : p.translator = none → p.ledger.bulk = none
  ordered : p.ledger.Ordered
  pending : p.ledger.covered < p.ledger.losses →
    p.Waiting ∨ Signals p.watcher ∨ p.ledger.bulk = some ⟨p.ledger.losses, true⟩

theorem accounted_start (t : Translator) (d : DentryIndex) (b : Backend) :
    (start t d b).Accounted where
  handling _ h := nomatch h
  idle h := nomatch h
  ordered := ⟨le_rfl, fun _ hk => Option.some.inj hk ▸ ⟨le_rfl, le_rfl⟩⟩
  pending h := absurd h (lt_irrefl 0)

/-- A loss that no one is told of is careless, unless an `Overflow` event is waiting. -/
theorem waiting_or_signals (res : Except String RawEvent) (hlossy : lossy res = true)
    (hcareful : p.Careful (.raw res)) : p.Waiting ∨ Signals (some (handleRawEvent res)) := by
  cases res with
  | error e => exact .inr signals_signalOverflow
  | ok event =>
    rcases (Bool.or_eq_true _ _).mp hlossy with hother | hdrops
    · obtain ⟨kind, paths⟩ := event
      obtain rfl : kind = .other := of_decide_eq_true hother
      exact .inr signals_offerEvent
    · exact .inl (hcareful hdrops)

theorem Accounted.raw (h : p.Accounted) (res : Except String RawEvent)
    (hcareful : p.Careful (.raw res)) (hw : p.watcher = none) :
    Accounted { p with
      watcher := some (handleRawEvent res)
      ledger := if lossy res then p.ledger.lose else p.ledger } where
  handling w hw' := Option.some.inj hw' ▸ handling_handleRawEvent res
  idle ht := by
    dsimp only
    split <;> exact h.idle ht
  ordered := by
    dsimp only
    split
    · exact h.ordered.lose
    · exact h.ordered
  pending hlt := by
    dsimp only at hlt ⊢
    cases hlossy : lossy res with
    | true => exact (waiting_or_signals res hlossy hcareful).imp_right .inl
    | false =>
      rw [hlossy] at hlt
      rcases h.pending hlt with hwait | ⟨k, hk⟩ | hbulk
      · exact .inl hwait
      · exact nomatch hw.symm.trans hk
      · exact .inr (.inr hbulk)

theorem Waiting.append (h : p.Waiting) (event : HostEvent) :
    (⟨.overflow⟩ : HostEvent) ∈ p.channel ++ [event] := List.mem_append_left _ h

/-- An event is put into the channel, or lost with the callback about to tell. -/
theorem Accounted.trySend (h : p.Accounted) (hcareful : p.Careful .watch) {kind : HostEventKind}
    {k : Bool → WatchM Unit} (hw : p.watcher = some (.act (.trySend ⟨kind⟩) k))
    (hk : ∀ room, Handling (k room)) (hfull : kind ≠ .overflow → Signals (some (k false))) :
    (p.watch (.act (.trySend ⟨kind⟩) k)).Accounted := by
  have handling : ∀ room w, some (k room) = some w → Handling w := fun room w hw' =>
    Option.some.inj hw' ▸ hk room
  -- What is pending stays pending, or is an `Overflow` event that is sent here.
  have pending : p.ledger.covered < p.ledger.losses → kind = .overflow ∨ p.Waiting ∨
      p.ledger.bulk = some ⟨p.ledger.losses, true⟩ := by
    intro hlt
    rcases h.pending hlt with hwait | ⟨k', hk'⟩ | hbulk
    · exact .inr (.inl hwait)
    · rw [hw] at hk'
      injection hk' with hk'
      injection hk' with hk'
      injection hk' with hk'
      exact .inl (congrArg HostEvent.kind hk')
    · exact .inr (.inr hbulk)
  dsimp only [Pipeline.watch]
  by_cases hroom : p.channel.length < EVENT_CHANNEL_SIZE
  · rw [if_pos hroom]
    refine ⟨handling true, h.idle, h.ordered, fun hlt => ?_⟩
    rcases pending hlt with rfl | hwait | hbulk
    · exact .inl (List.mem_append_right _ List.mem_cons_self)
    · exact .inl (hwait.append _)
    · exact .inr (.inr hbulk)
  · rw [if_neg hroom]
    by_cases hkind : kind = .overflow
    · subst hkind
      rw [if_pos rfl]
      exact ⟨handling false, h.idle, h.ordered, fun _ =>
        .inl ((hcareful k hw).resolve_left hroom)⟩
    · rw [if_neg hkind]
      exact ⟨handling false, h.idle, h.ordered.lose, fun _ => .inr (.inl (hfull hkind))⟩

theorem Accounted.watch (h : p.Accounted) (hcareful : p.Careful .watch) {w : WatchM Unit}
    (hw : p.watcher = some w) : (p.watch w).Accounted := by
  cases h.handling w hw with
  | done =>
    refine ⟨nofun, h.idle, h.ordered, fun hlt => (h.pending hlt).imp_right fun hrest => ?_⟩
    rcases hrest with ⟨k, hk⟩ | hbulk
    · exact nomatch hw.symm.trans hk
    · exact .inr hbulk
  | signal => exact h.trySend hcareful hw (fun _ => .done) fun hne => absurd rfl hne
  | offer kind =>
    refine h.trySend hcareful hw (fun room => ?_) fun _ => signals_signalOverflow
    cases room with
    | true => exact .done
    | false => exact .signal

theorem Accounted.recv (h : p.Accounted) (ht : p.translator = none) {event : HostEvent}
    {rest : List HostEvent} (hchannel : p.channel = event :: rest) :
    (p.recv t event rest).Accounted where
  handling := h.handling
  idle hnone := nomatch hnone
  ordered := by
    dsimp only [Pipeline.recv]
    split
    · exact h.ordered.begin
    · exact h.ordered
  pending hlt := by
    dsimp only [Pipeline.recv] at hlt ⊢
    by_cases hover : event.kind = .overflow
    · rw [if_pos hover]
      exact .inr (.inr rfl)
    · rw [if_neg hover] at hlt ⊢
      rcases h.pending hlt with hwait | hsignal | hbulk
      · -- The event that is taken is another one.
        rw [Waiting, hchannel] at hwait
        rcases List.mem_cons.mp hwait with heq | hmem
        · exact absurd (congrArg HostEvent.kind heq).symm hover
        · exact .inl hmem
      · exact .inr (.inl hsignal)
      · rw [h.idle ht] at hbulk
        cases hbulk

theorem send_of_hasBuffer {b : Backend} {needed : Nat} (h : HasBuffer b needed) :
    (b.send needed).1 = .ok () := by
  obtain ⟨henabled, hmem, ring, chain, rest, have_, hring, hchain, hwritable, hle⟩ := h
  obtain ⟨m, hm⟩ := Option.isSome_iff_exists.mp hmem
  simp only [Backend.send, henabled, hring, hm, hchain, hwritable, Bool.not_true,
    Bool.false_eq_true, if_false, if_neg (Nat.not_lt.mpr hle)]

/-- A notification is sent, or lost while an `Overflow` event is waiting. -/
theorem Accounted.send (h : p.Accounted) (hcareful : p.Careful .translate) {n : Notification}
    {k : Except NotifierError Unit → TranslateM Unit}
    (ht : p.translator = some (.act (.send n) k)) :
    (p.translate (.act (.send n) k)).Accounted := by
  dsimp only [Pipeline.translate, perform]
  have hsend : HasBuffer p.backend n.encodedLen → _ := send_of_hasBuffer
  generalize p.backend.send n.encodedLen = r at hsend ⊢
  obtain ⟨answer, b⟩ := r
  cases answer with
  | ok u => exact ⟨h.handling, nofun, h.ordered, h.pending⟩
  | error e =>
    refine ⟨h.handling, nofun, h.ordered.fail, fun _ => .inl ?_⟩
    exact (hcareful n k ht).resolve_left fun hbuffer => nomatch hsend hbuffer

theorem Accounted.done (h : p.Accounted) :
    Accounted { p with translator := none, ledger := p.ledger.settle } where
  handling := h.handling
  idle _ := p.ledger.settle_bulk
  ordered := h.ordered.settle
  pending hlt := by
    dsimp only at hlt ⊢
    rw [LossLedger.settle_losses] at hlt
    obtain ⟨hbefore, hbulk⟩ := h.ordered.of_settle hlt
    rcases h.pending hbefore with hwait | hsignal | hbulk'
    · exact .inl hwait
    · exact .inr (.inl hsignal)
    · exact absurd hbulk' hbulk

theorem Accounted.translate (h : p.Accounted) (hcareful : p.Careful .translate)
    {w : TranslateM Unit} (ht : p.translator = some w) : (p.translate w).Accounted := by
  cases w with
  | ret | err | panic => exact h.done
  | act a k =>
    cases a with
    | resolvePath | allInodes => exact ⟨h.handling, nofun, h.ordered, h.pending⟩
    | send n => exact h.send hcareful ht

/-! ## 5. All losses are made up for -/

/-- **One step.** -/
theorem Accounted.step {e : PipelineEvent} (h : p.Accounted) (hcareful : p.Careful e)
    (hs : p.step t e = some p') : p'.Accounted := by
  cases e with
  | raw res =>
    rw [Pipeline.step] at hs
    split at hs
    · cases hs
    · rename_i hw
      cases hs
      exact h.raw res hcareful (Option.not_isSome_iff_eq_none.mp hw)
  | watch =>
    obtain ⟨w, hw, rfl⟩ := Option.map_eq_some_iff.mp hs
    exact h.watch hcareful hw
  | recv =>
    rw [Pipeline.step] at hs
    split at hs
    · rename_i ht hchannel
      cases hs
      exact h.recv ht hchannel
    · cases hs
  | translate =>
    obtain ⟨w, ht, rfl⟩ := Option.map_eq_some_iff.mp hs
    exact h.translate hcareful ht
  | dentry | backend =>
    cases hs
    exact ⟨h.handling, h.idle, h.ordered, h.pending⟩

/-- A back end whose notification queue was kicked, with these buffers. -/
def kickedBackend (chains : List Chain) : Backend :=
  let cfg : BackendConfig := ⟨true, false⟩
  (((cfg.start VIRTIO_FS_F_NOTIFICATION).updateMemory 0).install 1 0).offer 1 chains

/-- **If all steps are careful, no loss is left** when nothing is in progress: all of them came
before the start of a bulk invalidation that was sent completely. -/
theorem losses_covered (t : Translator) (d : DentryIndex) (b : Backend)
    (events : List PipelineEvent) (p : Pipeline)
    (hcareful : StepsMeet (step t) Careful (start t d b) events)
    (hrun : steps (step t) (start t d b) events = some p) (hq : p.Quiescent) :
    p.ledger.covered = p.ledger.losses := by
  have h : p.Accounted := steps_invariant (fun _ _ _ h hc hs => h.step hc hs)
    (accounted_start t d b) hcareful hrun
  by_contra hne
  rcases h.pending (lt_of_le_of_ne h.ordered.covered hne) with hwait | ⟨k, hk⟩ | hbulk
  · rw [Waiting, hq.channel] at hwait
    cases hwait
  · exact nomatch hq.watcher.symm.trans hk
  · rw [h.idle hq.translator] at hbulk
    cases hbulk

/-- A backend error is followed by a bulk invalidation, for which there is a buffer. -/
theorem losses_covered_error :
    let t : Translator := ⟨1, [0x2f, 0x73]⟩
    let b := kickedBackend [⟨0, some 64⟩, ⟨1, some 64⟩]
    ∃ p : Pipeline, steps (step t) (start t .empty b) [.translate, .translate,
        .dentry (.insert 1 [0x61] 2), .raw (.error "lost"), .watch, .watch, .recv, .translate,
        .translate, .translate] = some p ∧ p.Quiescent ∧ p.ledger.losses = 1 ∧
      p.ledger.covered = p.ledger.losses := by
  intro t b
  refine ⟨_, rfl, ⟨rfl, rfl, rfl, ?_⟩, rfl, losses_covered t .empty b [.translate, .translate,
    .dentry (.insert 1 [0x61] 2), .raw (.error "lost"), .watch, .watch, .recv, .translate,
    .translate, .translate] _ ?_ rfl ⟨rfl, rfl, rfl, ?_⟩⟩
  · exact ⟨rfl, rfl, 1, ⟨1, some 64⟩, [], 64, rfl, rfl, rfl, by decide⟩
  · refine .cons (fun n k h => nomatch h) rfl <| .cons (fun n k h => nomatch h) rfl <|
      .cons trivial rfl <| .cons trivial rfl <| .cons (fun k _ => .inl (by decide)) rfl <|
      .cons (fun k h => nomatch h) rfl <| .cons trivial rfl <|
      .cons (fun n k h => nomatch h) rfl <| .cons (fun n k h => .inl ?_) rfl <|
      .cons (fun n k h => nomatch h) rfl trivial
    injection h with h
    injection h with h
    injection h with h
    subst h
    exact ⟨rfl, rfl, 1, ⟨0, some 64⟩, [⟨1, some 64⟩], 64, rfl, rfl, rfl, by decide⟩
  · exact ⟨rfl, rfl, 1, ⟨1, some 64⟩, [], 64, rfl, rfl, rfl, by decide⟩

/-- A file is modified while there is no buffer for the notification; buffers that come later
do not help. -/
theorem losses_not_covered :
    let t : Translator := ⟨1, [0x2f, 0x73]⟩
    ∃ p : Pipeline, steps (step t) (start t .empty (kickedBackend [])) [.translate, .translate,
        .dentry (.insert 1 [0x61] 2), .raw (.ok ⟨.modify, [[0x2f, 0x73, 0x2f, 0x61]]⟩), .watch,
        .watch, .recv, .translate, .translate, .translate,
        .backend ((kickedBackend []).offer 1 [⟨0, some 64⟩])] = some p ∧ p.Quiescent ∧
      p.ledger.covered < p.ledger.losses := by
  refine ⟨_, rfl, ⟨rfl, rfl, rfl, ?_⟩, Nat.zero_lt_one⟩
  exact ⟨rfl, rfl, 1, ⟨0, some 64⟩, [], 64, rfl, rfl, rfl, by decide⟩

end Pipeline

end Virtiofsd
