/-
  # Queues and their roles (`vhost_user.rs`)

  A virtio-fs device has a queue for high-priority requests (0), and one for requests.  If
  the guest has ACKNOWLEDGED the feature `VIRTIO_FS_F_NOTIFICATION`, queue 1 is for
  notifications, and the request queue is queue 2; otherwise the request queue is queue 1.

  The daemon decides by whether it has OFFERED the feature (`--notify-invalidate`).
  `acked_features` looks at another bit only.  So with a guest that does not know the
  feature, the daemon takes the request queue for the notification queue: it does not answer
  the requests there, and writes notifications into them (`notifier_consumes_request`).

  What is modelled is the daemon as a state machine: the messages of the front end, the
  chains the guest makes available, its kicks, the worker threads, and the notifier.  How the
  server answers a message is left open; if it fails, the process exits.
-/
import Virtiofsd.Basic
import Mathlib.Data.List.Count
import Mathlib.Data.List.Perm.Basic
import Mathlib.Data.Prod.Basic
import Mathlib.Logic.Function.Basic

namespace Virtiofsd

open Function List

/-! ## 1. The daemon -/

/-- A descriptor chain: its head index, and how many bytes can be written to it (`none` if it
is not in the guest's memory). -/
structure Chain where
  headIndex : Nat
  writable : Option Nat
  deriving DecidableEq

/-- `Error` in `vhost_user.rs`, as far as queue events lead to it. -/
inductive QueueError where
  | handleEventNotEpollIn
  | handleEventUnknownEvent
  | noMemoryConfigured
  deriving DecidableEq

/-- `NotifierError`. -/
inductive NotifierError where
  | queueNotNegotiated
  | queueFull
  | bufferTooSmall (needed have_ : Nat)
  | io (message : String)
  deriving DecidableEq

/-- `1 << n`. -/
def featureBit (n : UInt64) : UInt64 := 1 <<< n

def VIRTIO_FS_F_NOTIFICATION : UInt64 := featureBit 0
def HIPRIO_QUEUE_EVENT : Nat := 0
def REQ_QUEUE_EVENT_NO_NOTIF : Nat := 1
def NOTIF_QUEUE_EVENT : Nat := 1
def REQ_QUEUE_EVENT_WITH_NOTIF : Nat := 2
/-- `VhostUserVirtioFeatures::LOG_ALL`. -/
def LOG_ALL : UInt64 := featureBit 26

/-- **`NotifierState`**; the ring is known by its index. -/
structure NotifierState where
  enabled : Bool
  vring : Option Nat
  mem : Option Nat

/-- What the user chooses: `VhostUserFsBackendBuilder`. -/
structure BackendConfig where
  notifyInvalidate : Bool
  threadPool : Bool

/-- **`VhostUserFsBackend`, its thread and its rings.**  A memory is known by a number.  The
last four fields are not in the code: they record what has happened to chains, and what the
guest has acknowledged. -/
structure Backend where
  cfg : BackendConfig
  notifier : NotifierState
  mem : Option Nat
  eventIdx : Bool
  /-- A `PremigrationThread` is running. -/
  premigration : Bool
  /-- The available chains of each ring. -/
  rings : Nat → List Chain
  /-- The chains the worker threads are busy with, and the rings they are from. -/
  inFlight : List (Nat × Chain)
  exited : Bool
  /-- The chains that were returned with the answer of the server. -/
  answered : List (Nat × Chain)
  /-- The chains the notifier has taken. -/
  notified : List (Nat × Chain)
  /-- All chains the guest has made available. -/
  offered : List (Nat × Chain)
  acked : UInt64

/-- `features`: version 1, indirect descriptors, event indices, protocol features, logging,
and the notification queue if the user wants it. -/
def BackendConfig.features (cfg : BackendConfig) : UInt64 :=
  let base := featureBit 32 ||| featureBit 28 ||| featureBit 29 ||| featureBit 30 ||| LOG_ALL
  if cfg.notifyInvalidate then base ||| VIRTIO_FS_F_NOTIFICATION else base

namespace Backend

/-- The guest makes chains available. -/
def offer (b : Backend) (ring : Nat) (chains : List Chain) : Backend :=
  { b with
    rings := Function.update b.rings ring (b.rings ring ++ chains)
    offered := b.offered ++ chains.map (ring, ·) }

/-- `acked_features`: only `LOG_ALL` is looked at. -/
def ackedFeatures (b : Backend) (features : UInt64) : Backend :=
  { b with
    acked := features
    premigration := features &&& LOG_ALL ≠ 0 }

/-- `set_event_idx`. -/
def setEventIdx (b : Backend) (enabled : Bool) : Backend := { b with eventIdx := enabled }

/-- `update_memory`. -/
def updateMemory (b : Backend) (mem : Nat) : Backend :=
  { b with
    mem := some mem
    notifier := if b.cfg.notifyInvalidate then { b.notifier with mem := some mem } else b.notifier }

/-- `NotifierState::install`: only the first ring and the first memory are kept. -/
def install (b : Backend) (ring mem : Nat) : Backend :=
  { b with notifier :=
    { b.notifier with
      vring := b.notifier.vring.or (some ring)
      mem := b.notifier.mem.or (some mem) } }

/-- **`NotifierState::send`** of `needed` bytes.  The chain it takes from the ring is not put
back, whatever happens. -/
def send (b : Backend) (needed : Nat) : Except NotifierError Unit × Backend :=
  if !b.notifier.enabled then (.error .queueNotNegotiated, b)
  else
    match b.notifier.vring, b.notifier.mem with
    | some ring, some _ =>
      match b.rings ring with
      | [] => (.error .queueFull, b)
      | chain :: rest =>
        let b := { b with
          rings := Function.update b.rings ring rest
          notified := b.notified ++ [(ring, chain)] }
        match chain.writable with
        | none => (.error (.io "creating notification writer"), b)
        | some have_ =>
          if have_ < needed then (.error (.bufferTooSmall needed have_), b) else (.ok (), b)
    | _, _ => (.error .queueNotNegotiated, b)

/-! ## 2. Queue events -/

/-- `return_descriptor`. -/
def returnDescriptor (b : Backend) (ring : Nat) (chain : Chain) : Backend :=
  { b with answered := b.answered ++ [(ring, chain)] }

/-- `process_queue_pool`: every chain goes to a worker thread. -/
def processQueuePool (ring : Nat) (b : Backend) : Except QueueError Unit × Backend :=
  match b.mem with
  | none => (.error .noMemoryConfigured, b)
  | some _ => (.ok (), { b with
      rings := Function.update b.rings ring []
      inFlight := b.inFlight ++ (b.rings ring).map (ring, ·) })

/-- The loop of `process_queue_serial`.  `server` is what `process_message` returns. -/
def serveChains (server : Chain → Option Nat) (ring : Nat) : List Chain → Backend → Backend
  | [], b => b
  | chain :: rest, b =>
    match server chain with
    | some _ => serveChains server ring rest (b.returnDescriptor ring chain)
    | none => { b with exited := true }

/-- `process_queue_serial`. -/
def processQueueSerial (server : Chain → Option Nat) (ring : Nat) (b : Backend) :
    Except QueueError Unit × Backend :=
  match b.mem with
  | none => (.error .noMemoryConfigured, b)
  | some _ => (.ok (), serveChains server ring (b.rings ring)
      { b with rings := Function.update b.rings ring [] })

/-- The loop with `EVENT_IDX`, until `enable_notification` finds nothing new.  `arrivals` are
the chains that are made available during each round. -/
def eventLoop (processQueue : Nat → Backend → Except QueueError Unit × Backend) (ring : Nat) :
    List (List Chain) → Backend → Backend
  | [], b => (processQueue ring b).2
  | chains :: arrivals, b =>
    let b := ((processQueue ring b).2).offer ring chains
    if chains.isEmpty || b.exited then b else eventLoop processQueue ring arrivals b

/-- What `handle_event_pool` and `handle_event_serial` have in common. -/
def handleEventWith (processQueue : Nat → Backend → Except QueueError Unit × Backend)
    (deviceEvent : Nat) (arrivals : List (List Chain)) (b : Backend) :
    Except QueueError Unit × Backend :=
  let notifEnabled := b.notifier.enabled
  let reqEvent := if notifEnabled then REQ_QUEUE_EVENT_WITH_NOTIF else REQ_QUEUE_EVENT_NO_NOTIF
  if notifEnabled && deviceEvent = NOTIF_QUEUE_EVENT then
    match b.mem with
    | some mem => (.ok (), b.install 1 mem)
    | none => (.ok (), b)
  else if deviceEvent = HIPRIO_QUEUE_EVENT ∨ deviceEvent = reqEvent then
    let idx := if deviceEvent = HIPRIO_QUEUE_EVENT then 0 else if notifEnabled then 2 else 1
    if b.eventIdx then (.ok (), eventLoop processQueue idx arrivals b) else processQueue idx b
  else (.error .handleEventUnknownEvent, b)

def handleEventPool (deviceEvent : Nat) (arrivals : List (List Chain)) (b : Backend) :
    Except QueueError Unit × Backend :=
  handleEventWith processQueuePool deviceEvent arrivals b

def handleEventSerial (server : Chain → Option Nat) (deviceEvent : Nat)
    (arrivals : List (List Chain)) (b : Backend) : Except QueueError Unit × Backend :=
  handleEventWith (processQueueSerial server) deviceEvent arrivals b

/-- **`handle_event`.** -/
def handleEvent (b : Backend) (readable : Bool) (deviceEvent : Nat)
    (arrivals : List (List Chain)) (server : Chain → Option Nat) :
    Except QueueError Unit × Backend :=
  if !readable then (.error .handleEventNotEpollIn, b)
  else if b.cfg.threadPool then handleEventPool deviceEvent arrivals b
  else handleEventSerial server deviceEvent arrivals b

/-- A worker thread is done with its message. -/
def finish (b : Backend) (k : Nat) (answer : Option Nat) : Backend :=
  match b.inFlight[k]? with
  | none => b
  | some (ring, chain) =>
    match answer with
    | some _ => { b with inFlight := b.inFlight.eraseIdx k }.returnDescriptor ring chain
    | none => { b with exited := true }

end Backend

/-! ## 3. Runs -/

def hasNotification (features : UInt64) : Bool := features &&& VIRTIO_FS_F_NOTIFICATION ≠ 0

/-- **Where the guest puts its requests**, as it has acknowledged the features. -/
def requestQueue (acked : UInt64) : Nat := if hasNotification acked then 2 else 1

/-- The queues the guest has. -/
def guestQueues (acked : UInt64) : List Nat := if hasNotification acked then [0, 1, 2] else [0, 1]

/-- `build`, and the first features the guest acknowledges. -/
def BackendConfig.start (cfg : BackendConfig) (features : UInt64) : Backend :=
  Backend.ackedFeatures
    { cfg := cfg
      notifier := ⟨cfg.notifyInvalidate, none, none⟩
      mem := none
      eventIdx := false
      premigration := false
      rings := fun _ => []
      inFlight := []
      exited := false
      answered := []
      notified := []
      offered := []
      acked := 0 } features

/-- **One step.**  The guest acknowledges only what is offered, and its chains are in its
memory and on its queues.  `ok` restricts what it acknowledges, and `mayFail` the chains that
`process_message` fails on. -/
inductive QueueStep (ok : UInt64 → Prop) (mayFail : Chain → Prop) : Backend → Backend → Prop where
  | ackedFeatures (b : Backend) (features : UInt64)
      (hoffered : features &&& b.cfg.features = features) (hok : ok features)
      (halive : b.exited = false) : QueueStep ok mayFail b (b.ackedFeatures features)
  | setEventIdx (b : Backend) (enabled : Bool) (halive : b.exited = false) :
      QueueStep ok mayFail b (b.setEventIdx enabled)
  | updateMemory (b : Backend) (mem : Nat) (halive : b.exited = false) :
      QueueStep ok mayFail b (b.updateMemory mem)
  | offer (b : Backend) (ring : Nat) (chains : List Chain) (hmem : b.mem.isSome)
      (hring : ring ∈ guestQueues b.acked) (halive : b.exited = false) :
      QueueStep ok mayFail b (b.offer ring chains)
  | event (b : Backend) (readable : Bool) (deviceEvent : Nat) (arrivals : List (List Chain))
      (server : Chain → Option Nat) (hserver : ∀ chain, server chain = none → mayFail chain)
      (hring : deviceEvent ∈ guestQueues b.acked ∨ arrivals = []) (halive : b.exited = false) :
      QueueStep ok mayFail b (b.handleEvent readable deviceEvent arrivals server).2
  | finish (b : Backend) (k : Nat) (answer : Option Nat)
      (hanswer : answer = none → ∀ x, b.inFlight[k]? = some x → mayFail x.2)
      (halive : b.exited = false) : QueueStep ok mayFail b (b.finish k answer)
  | send (b : Backend) (needed : Nat) (halive : b.exited = false) :
      QueueStep ok mayFail b (b.send needed).2

/-- **The states of all runs.** -/
inductive QueueReachable (cfg : BackendConfig) (ok : UInt64 → Prop) (mayFail : Chain → Prop) :
    Backend → Prop where
  | start (features : UInt64) (hoffered : features &&& cfg.features = features)
      (hok : ok features) : QueueReachable cfg ok mayFail (cfg.start features)
  | step {b b' : Backend} (h : QueueReachable cfg ok mayFail b) (hs : QueueStep ok mayFail b b') :
      QueueReachable cfg ok mayFail b'

/-! ## 4. What the roles of the queues ask for -/

/-- The ring is one of those with requests. -/
def IsRequestQueue (acked : UInt64) (ring : Nat) : Prop := ring = 0 ∨ ring = requestQueue acked

/-- The workers come to their ends, in any order, and each with an answer. -/
inductive Finished : Backend → Backend → Prop where
  | idle {b : Backend} (h : b.inFlight = []) : Finished b b
  | next {b b' : Backend} (k len : Nat) (hk : k < b.inFlight.length)
      (h : Finished (b.finish k (some len)) b') : Finished b b'

/-- **All requests of a ring are answered once the workers are done**, which they come to. -/
def AnswersAll (ring : Nat) (b : Backend) : Prop :=
  (∃ b', Finished b b') ∧ ∀ b', Finished b b' → b'.exited = false ∧
    ∀ chain, b'.answered.count (ring, chain) = b.offered.count (ring, chain)

/-- **The queues have the roles the guest has negotiated.** -/
structure QueueRoles (b : Backend) : Prop where
  alive : b.exited = false
  /-- Without the feature nothing is sent, and no chain is taken. -/
  silent : hasNotification b.acked = false →
    ∀ needed, b.send needed = (.error .queueNotNegotiated, b)
  /-- The notifier takes chains from the notification queue only. -/
  notifier : ∀ x ∈ b.notified, hasNotification b.acked = true ∧ x.1 = NOTIF_QUEUE_EVENT
  /-- Only chains of the request queues are handled as requests. -/
  server : ∀ x ∈ b.inFlight ++ b.answered, IsRequestQueue b.acked x.1
  /-- No request is lost. -/
  accounted : ∀ x : Nat × Chain, IsRequestQueue b.acked x.1 →
    b.offered.count x = (b.rings x.1).count x.2 + b.inFlight.count x + b.answered.count x
  /-- A kick of a request queue, with a server that answers, has all its chains answered. -/
  served : b.mem.isSome → ∀ ring, IsRequestQueue b.acked ring → ∀ arrivals server,
    (∀ chain, (server chain).isSome) →
      (b.handleEvent true ring arrivals server).1 = .ok () ∧
        AnswersAll ring (b.handleEvent true ring arrivals server).2

/-! ## 5. One queue event -/

namespace Backend

variable {b b' b'' : Backend} {ring : Nat} {server : Chain → Option Nat}

/-- Where a chain is that was not taken by the notifier. -/
def owned (b : Backend) (x : Nat × Chain) : Nat :=
  (b.rings x.1).count x.2 + b.inFlight.count x + b.answered.count x

/-- **Chains of one ring have been offered and handed to the server**, and nothing else. -/
structure Serves (ring : Nat) (b b' : Backend) : Prop where
  cfg : b'.cfg = b.cfg
  notifier : b'.notifier = b.notifier
  acked : b'.acked = b.acked
  notified : b'.notified = b.notified
  mem : b'.mem = b.mem
  exited : b'.exited = b.exited
  server : ∀ x ∈ b'.inFlight ++ b'.answered, x ∈ b.inFlight ++ b.answered ∨ x.1 = ring
  owned : ∀ x, b'.offered.count x + b.owned x = b.offered.count x + b'.owned x

theorem Serves.refl (ring : Nat) (b : Backend) : Serves ring b b :=
  ⟨rfl, rfl, rfl, rfl, rfl, rfl, fun _ h => .inl h, fun _ => rfl⟩

theorem Serves.trans (h : Serves ring b b') (h' : Serves ring b' b'') : Serves ring b b'' where
  cfg := h'.cfg.trans h.cfg
  notifier := h'.notifier.trans h.notifier
  acked := h'.acked.trans h.acked
  notified := h'.notified.trans h.notified
  mem := h'.mem.trans h.mem
  exited := h'.exited.trans h.exited
  server x hx := (h'.server x hx).elim (h.server x) .inr
  owned x := by
    have h₁ := h.owned x
    have h₂ := h'.owned x
    omega

/-- Chains of one ring, among all. -/
theorem count_map_ring (ring : Nat) (l : List Chain) (x : Nat × Chain) :
    (l.map (ring, ·)).count x = if x.1 = ring then l.count x.2 else 0 := by
  obtain ⟨i, c⟩ := x
  split
  · rename_i hi
    obtain rfl : i = ring := hi
    exact count_map_of_injective l _ (Prod.mk_right_injective i) c
  · rename_i hi
    refine count_eq_zero.mpr fun hmem => hi ?_
    obtain ⟨_, _, he⟩ := mem_map.mp hmem
    exact (Prod.mk.inj he).1.symm

theorem count_update (b : Backend) (ring : Nat) (l : List Chain) (x : Nat × Chain) :
    (update b.rings ring l x.1).count x.2 =
      if x.1 = ring then l.count x.2 else (b.rings x.1).count x.2 := by
  by_cases h : x.1 = ring
  · rw [if_pos h, h, update_self]
  · rw [if_neg h, update_of_ne h]

theorem offer_serves (ring : Nat) (chains : List Chain) (b : Backend) :
    Serves ring b (b.offer ring chains) := by
  refine ⟨rfl, rfl, rfl, rfl, rfl, rfl, fun _ h => .inl h, fun x => ?_⟩
  simp only [offer, owned, count_append, count_map_ring, count_update]
  split
  · rename_i hx
    rw [hx]
    omega
  · omega

/-- The chains of a ring go to the workers, or are answered. -/
theorem Serves.handed {b : Backend} {busy done : List Chain} (h : busy ++ done = b.rings ring) :
    Serves ring b { b with
      rings := update b.rings ring []
      inFlight := b.inFlight ++ busy.map (ring, ·)
      answered := b.answered ++ done.map (ring, ·) } := by
  refine ⟨rfl, rfl, rfl, rfl, rfl, rfl, fun x hx => ?_, fun x => ?_⟩
  · simp only [mem_append, mem_map] at hx ⊢
    rcases hx with (hx | ⟨_, _, rfl⟩) | hx | ⟨_, _, rfl⟩
    · exact .inl (.inl hx)
    · exact .inr rfl
    · exact .inl (.inr hx)
    · exact .inr rfl
  · simp only [Backend.owned, count_append, count_map_ring, count_update]
    split
    · rename_i hx
      rw [hx, ← h, count_append, count_nil]
      omega
    · omega

/-- **What a pass over a ring does**, with memory: the ring is empty, and its chains are with
the workers or answered. -/
structure Passes (processQueue : Nat → Backend → Except QueueError Unit × Backend) : Prop where
  serves : ∀ ring b, Serves ring b (processQueue ring b).2
  empty : ∀ ring {b : Backend}, b.mem.isSome →
    (processQueue ring b).1 = .ok () ∧ (processQueue ring b).2.rings ring = []

theorem processQueuePool_passes : Passes processQueuePool where
  serves ring b := by
    unfold processQueuePool
    split
    · exact Serves.refl _ _
    · simpa using Serves.handed (append_nil (b.rings ring))
  empty ring b hmem := by
    obtain ⟨mem, hmem⟩ := Option.isSome_iff_exists.mp hmem
    simp [processQueuePool, hmem]

/-- A server that answers: all chains are returned. -/
theorem serveChains_eq (hserver : ∀ chain, (server chain).isSome) (ring : Nat) :
    ∀ (l : List Chain) (b : Backend),
      serveChains server ring l b = { b with answered := b.answered ++ l.map (ring, ·) }
  | [], b => by simp [serveChains]
  | chain :: rest, b => by
    obtain ⟨len, hlen⟩ := Option.isSome_iff_exists.mp (hserver chain)
    rw [serveChains, hlen]
    exact (serveChains_eq hserver ring rest _).trans (by simp [returnDescriptor])

theorem processQueueSerial_passes (hserver : ∀ chain, (server chain).isSome) :
    Passes (processQueueSerial server) where
  serves ring b := by
    unfold processQueueSerial
    split
    · exact Serves.refl _ _
    · rw [serveChains_eq hserver]
      simpa using Serves.handed (nil_append (b.rings ring))
  empty ring b hmem := by
    obtain ⟨mem, hmem⟩ := Option.isSome_iff_exists.mp hmem
    simp [processQueueSerial, hmem, serveChains_eq hserver]

variable {processQueue : Nat → Backend → Except QueueError Unit × Backend}

/-- The loop of a queue event, given what one pass does. -/
theorem eventLoop_serves (hpass : Passes processQueue) :
    ∀ (arrivals : List (List Chain)) (b : Backend),
      Serves ring b (eventLoop processQueue ring arrivals b)
  | [], b => hpass.serves ring b
  | chains :: arrivals, b => by
    have h := (hpass.serves ring b).trans (offer_serves ring chains _)
    unfold eventLoop
    dsimp only
    split
    · exact h
    · exact h.trans (eventLoop_serves hpass arrivals _)

/-- It ends when nothing has arrived, so that the ring is empty. -/
theorem eventLoop_empty (hpass : Passes processQueue) :
    ∀ (arrivals : List (List Chain)) (b : Backend), b.mem.isSome → b.exited = false →
      (eventLoop processQueue ring arrivals b).rings ring = []
  | [], b, hmem, _ => (hpass.empty ring hmem).2
  | chains :: arrivals, b, hmem, halive => by
    have hserves := (hpass.serves ring b).trans (offer_serves ring chains _)
    unfold eventLoop
    dsimp only
    rw [hserves.exited, halive, Bool.or_false]
    split
    · rename_i hnone
      rw [List.isEmpty_iff] at hnone
      simp [offer, hnone, (hpass.empty ring hmem).2]
    · exact eventLoop_empty hpass arrivals _ (hserves.mem ▸ hmem) (hserves.exited.trans halive)

/-- **What a queue event does**: nothing, or it hands the notifier its ring, or it hands the
chains of a request queue to the server. -/
theorem handleEventWith_cases (hpass : Passes processQueue) (deviceEvent : Nat)
    (arrivals : List (List Chain)) (b : Backend) :
    (handleEventWith processQueue deviceEvent arrivals b).2 = b ∨
      (∃ mem, b.notifier.enabled = true ∧
        (handleEventWith processQueue deviceEvent arrivals b).2 = b.install 1 mem) ∨
      ∃ ring, (ring = 0 ∨ ring = if b.notifier.enabled then 2 else 1) ∧
        Serves ring b (handleEventWith processQueue deviceEvent arrivals b).2 := by
  unfold handleEventWith
  dsimp only
  split
  · rename_i hnotif
    split
    · rename_i mem _
      exact .inr (.inl ⟨mem, (Bool.and_eq_true_iff.mp hnotif).1, rfl⟩)
    · exact .inl rfl
  · by_cases hreq : deviceEvent = HIPRIO_QUEUE_EVENT ∨ deviceEvent =
      if b.notifier.enabled then REQ_QUEUE_EVENT_WITH_NOTIF else REQ_QUEUE_EVENT_NO_NOTIF
    · rw [if_pos hreq]
      refine .inr (.inr ⟨if deviceEvent = HIPRIO_QUEUE_EVENT then 0
        else if b.notifier.enabled then 2 else 1, ?_, ?_⟩)
      · by_cases hzero : deviceEvent = HIPRIO_QUEUE_EVENT
        · exact .inl (if_pos hzero)
        · exact .inr (if_neg hzero)
      · by_cases hidx : b.eventIdx = true
        · rw [if_pos hidx]
          exact eventLoop_serves hpass arrivals b
        · rw [if_neg hidx]
          exact hpass.serves _ b
    · rw [if_neg hreq]
      exact .inl rfl

/-- An event of one of the queues the daemon takes for request queues. -/
theorem handleEventWith_empty (hpass : Passes processQueue)
    (hring : ring = 0 ∨ ring = if b.notifier.enabled then 2 else 1) (hmem : b.mem.isSome)
    (halive : b.exited = false) (arrivals : List (List Chain)) :
    (handleEventWith processQueue ring arrivals b).1 = .ok () ∧
      (handleEventWith processQueue ring arrivals b).2.rings ring = [] := by
  have hnotif : ¬ (b.notifier.enabled && decide (ring = NOTIF_QUEUE_EVENT)) = true := by
    cases henabled : b.notifier.enabled <;> rw [henabled] at hring <;>
      rcases hring with rfl | rfl <;> decide
  have hreq : ring = HIPRIO_QUEUE_EVENT ∨
      ring = if b.notifier.enabled then REQ_QUEUE_EVENT_WITH_NOTIF else REQ_QUEUE_EVENT_NO_NOTIF :=
    hring
  have hidx : (if ring = HIPRIO_QUEUE_EVENT then 0 else if b.notifier.enabled then 2 else 1) =
      ring := by
    split
    · rename_i h
      exact h.symm
    · rename_i h
      exact (hring.resolve_left h).symm
  unfold handleEventWith
  dsimp only
  rw [if_neg hnotif, if_pos hreq, hidx]
  split
  · exact ⟨rfl, eventLoop_empty hpass arrivals b hmem halive⟩
  · exact hpass.empty ring hmem

/-- `handle_event` is one of its two forms. -/
theorem handleEvent_eq (hserver : ∀ chain, (server chain).isSome) (b : Backend) :
    ∃ processQueue, Passes processQueue ∧ ∀ deviceEvent arrivals,
      b.handleEvent true deviceEvent arrivals server =
        handleEventWith processQueue deviceEvent arrivals b := by
  cases hpool : b.cfg.threadPool with
  | true => exact ⟨_, processQueuePool_passes, fun _ _ => by simp [handleEvent, hpool]; rfl⟩
  | false =>
    exact ⟨_, processQueueSerial_passes hserver, fun _ _ => by simp [handleEvent, hpool]; rfl⟩

/-- `send` takes a chain from its ring, or leaves everything as it is. -/
theorem send_cases (b : Backend) (needed : Nat) :
    (b.send needed).2 = b ∨ ∃ ring chain rest, b.notifier.enabled = true ∧
      b.notifier.vring = some ring ∧ b.rings ring = chain :: rest ∧
      (b.send needed).2 = { b with
        rings := update b.rings ring rest
        notified := b.notified ++ [(ring, chain)] } := by
  unfold send
  split
  · exact .inl rfl
  · rename_i henabled
    split
    · rename_i ring _ hvring _
      split
      · exact .inl rfl
      · rename_i chain rest hrings
        refine .inr ⟨ring, chain, rest, by simpa using henabled, hvring, hrings, ?_⟩
        dsimp only
        split
        · rfl
        · split <;> rfl
    · exact .inl rfl

/-- **The invariant**, for a guest that acknowledges notifications if the daemon offers them,
and a server that does not fail. -/
structure Inv (b : Backend) : Prop where
  alive : b.exited = false
  enabled : b.notifier.enabled = b.cfg.notifyInvalidate
  vring : ∀ ring, b.notifier.vring = some ring → b.cfg.notifyInvalidate = true ∧ ring = 1
  acked : hasNotification b.acked = b.cfg.notifyInvalidate
  notified : ∀ x ∈ b.notified, b.cfg.notifyInvalidate = true ∧ x.1 = 1
  server : ∀ x ∈ b.inFlight ++ b.answered, IsRequestQueue b.acked x.1
  owned : ∀ x : Nat × Chain, IsRequestQueue b.acked x.1 → b.offered.count x = b.owned x

variable (h : b.Inv)

include h in
theorem Inv.requestQueue_eq : requestQueue b.acked = if b.notifier.enabled then 2 else 1 := by
  rw [requestQueue, h.acked, h.enabled]

include h in
theorem Inv.serves (hring : IsRequestQueue b.acked ring) (hs : Serves ring b b') : b'.Inv where
  alive := hs.exited.trans h.alive
  enabled := by rw [hs.notifier, hs.cfg, h.enabled]
  vring := by rw [hs.notifier, hs.cfg]; exact h.vring
  acked := by rw [hs.acked, hs.cfg, h.acked]
  notified := by rw [hs.notified, hs.cfg]; exact h.notified
  server x hx := by
    rw [hs.acked]
    rcases hs.server x hx with hx | hx
    · exact h.server x hx
    · rw [hx]
      exact hring
  owned x hx := by
    rw [hs.acked] at hx
    have h₁ := h.owned x hx
    have h₂ := hs.owned x
    omega

include h in
theorem Inv.install (henabled : b.notifier.enabled = true) (mem : Nat) : (b.install 1 mem).Inv where
  alive := h.alive
  enabled := h.enabled
  vring ring hring := by
    refine ⟨h.enabled ▸ henabled, ?_⟩
    cases hv : b.notifier.vring with
    | none => simpa [Backend.install, hv] using hring.symm
    | some ring' =>
      have := (h.vring ring' hv).2
      simp only [Backend.install, hv, Option.some_or, Option.some.injEq] at hring
      omega
  acked := h.acked
  notified := h.notified
  server := h.server
  owned := h.owned

include h in
theorem Inv.handleEvent (readable : Bool) (deviceEvent : Nat) (arrivals : List (List Chain))
    (hserver : ∀ chain, (server chain).isSome) :
    (b.handleEvent readable deviceEvent arrivals server).2.cfg = b.cfg ∧
      (b.handleEvent readable deviceEvent arrivals server).2.Inv := by
  obtain ⟨processQueue, hpass, heq⟩ := handleEvent_eq hserver b
  cases readable with
  | false => exact ⟨rfl, h⟩
  | true =>
    rw [heq]
    rcases handleEventWith_cases hpass deviceEvent arrivals b with
      heq | ⟨mem, henabled, heq⟩ | ⟨ring, hring, hs⟩
    · rw [heq]
      exact ⟨rfl, h⟩
    · rw [heq]
      exact ⟨rfl, h.install henabled mem⟩
    · refine ⟨hs.cfg, h.serves ?_ hs⟩
      rw [IsRequestQueue, h.requestQueue_eq]
      exact hring

include h in
theorem Inv.offer (chains : List Chain) : (b.offer ring chains).Inv where
  alive := h.alive
  enabled := h.enabled
  vring := h.vring
  acked := h.acked
  notified := h.notified
  server := h.server
  owned x hx := by
    have h₁ := h.owned x hx
    have h₂ := (offer_serves ring chains b).owned x
    omega

include h in
/-- A worker is done: its chain is answered. -/
theorem Inv.finish {k : Nat} (hk : k < b.inFlight.length) (len : Nat) :
    (b.finish k (some len)).Inv ∧ b.finish k (some len) = { b with
      inFlight := b.inFlight.eraseIdx k, answered := b.answered ++ [b.inFlight[k]] } := by
  have heq : b.finish k (some len) = { b with
      inFlight := b.inFlight.eraseIdx k, answered := b.answered ++ [b.inFlight[k]] } := by
    simp [Backend.finish, hk, returnDescriptor]
  refine ⟨?_, heq⟩
  rw [heq]
  refine ⟨h.alive, h.enabled, h.vring, h.acked, h.notified, fun y hy => ?_, fun y hy => ?_⟩
  · simp only [mem_append, mem_singleton] at hy
    rcases hy with hy | hy | rfl
    · exact h.server y (mem_append_left _ (mem_of_mem_eraseIdx hy))
    · exact h.server y (mem_append_right _ hy)
    · exact h.server _ (mem_append_left _ (getElem_mem hk))
  · have hcount := (getElem_cons_eraseIdx_perm hk).count_eq y
    have howned := h.owned y hy
    rw [count_cons] at hcount
    simp only [Backend.owned, count_append, count_singleton] at howned ⊢
    omega

include h in
theorem Inv.send (needed : Nat) : (b.send needed).2.cfg = b.cfg ∧ (b.send needed).2.Inv := by
  rcases send_cases b needed with heq | ⟨ring, chain, rest, henabled, hvring, hrings, heq⟩
  · rw [heq]
    exact ⟨rfl, h⟩
  · rw [heq]
    obtain ⟨hflag, rfl⟩ := h.vring ring hvring
    refine ⟨rfl, h.alive, h.enabled, h.vring, h.acked, fun x hx => ?_, h.server, fun x hx => ?_⟩
    · rcases mem_append.mp hx with hx | hx
      · exact h.notified x hx
      · rw [mem_singleton.mp hx]
        exact ⟨hflag, rfl⟩
    · -- Queue 1 is no request queue, as the guest has acknowledged notifications.
      have hne : x.1 ≠ 1 := by
        rw [IsRequestQueue, requestQueue, h.acked, hflag] at hx
        rcases hx with hx | hx <;> rw [hx] <;> decide
      have howned := h.owned x hx
      simp only [Backend.owned, update_of_ne hne] at howned ⊢
      exact howned

include h in
/-- **With its ring empty, all requests of a queue are answered when the workers are done.** -/
theorem Inv.answersAll (hring : IsRequestQueue b.acked ring) (hempty : b.rings ring = []) :
    AnswersAll ring b := by
  constructor
  · -- each worker that is done leaves one less
    induction hn : b.inFlight.length generalizing b with
    | zero => exact ⟨b, .idle (length_eq_zero_iff.mp hn)⟩
    | succ n ih =>
      have hk : 0 < b.inFlight.length := by omega
      obtain ⟨hinv, heq⟩ := h.finish hk 0
      obtain ⟨b', hb'⟩ := ih hinv (by rw [heq]; exact hring) (by rw [heq]; exact hempty)
        (by rw [heq, length_eraseIdx_of_lt hk]; omega)
      exact ⟨b', .next 0 0 hk hb'⟩
  · intro b' hb'
    induction hb' with
    | @idle b hidle =>
      refine ⟨h.alive, fun chain => ?_⟩
      have howned := h.owned (ring, chain) hring
      simp only [Backend.owned, hempty, hidle, count_nil] at howned
      omega
    | next k len hk _ ih =>
      obtain ⟨hinv, heq⟩ := h.finish hk len
      have hall := ih hinv (by rw [heq]; exact hring) (by rw [heq]; exact hempty)
      rw [heq] at hall
      exact hall

end Backend

/-! ## 6. All runs -/

/-- The guest acknowledges notifications if the daemon offers them. -/
def AcksNotification (cfg : BackendConfig) (features : UInt64) : Prop :=
  cfg.notifyInvalidate = true → hasNotification features = true

variable {cfg : BackendConfig} {ok : UInt64 → Prop} {mayFail : Chain → Prop}

/-- What is not offered cannot be acknowledged. -/
theorem hasNotification_of_offered {features : UInt64}
    (hoffered : features &&& cfg.features = features) (hflag : cfg.notifyInvalidate = false) :
    hasNotification features = false := by
  have hnone : cfg.features &&& VIRTIO_FS_F_NOTIFICATION = 0 := by
    rw [BackendConfig.features, hflag]
    decide
  rw [hasNotification, ← hoffered, UInt64.and_assoc, hnone]
  simp

theorem hasNotification_eq {features : UInt64} (hoffered : features &&& cfg.features = features)
    (hacks : AcksNotification cfg features) :
    hasNotification features = cfg.notifyInvalidate := by
  cases hflag : cfg.notifyInvalidate with
  | false => exact hasNotification_of_offered hoffered hflag
  | true => exact hacks hflag

theorem isRequestQueue_congr {acked acked' : UInt64}
    (h : hasNotification acked = hasNotification acked') (ring : Nat) :
    IsRequestQueue acked ring ↔ IsRequestQueue acked' ring := by
  rw [IsRequestQueue, IsRequestQueue, requestQueue, requestQueue, h]

theorem BackendConfig.start_inv {features : UInt64}
    (hoffered : features &&& cfg.features = features) (hacks : AcksNotification cfg features) :
    (cfg.start features).Inv where
  alive := rfl
  enabled := rfl
  vring _ h := by cases h
  acked := hasNotification_eq hoffered hacks
  notified _ h := by cases h
  server _ h := by cases h
  owned _ _ := rfl

theorem Backend.Inv.ackedFeatures {b : Backend} (h : b.Inv) {features : UInt64}
    (hoffered : features &&& b.cfg.features = features)
    (hacks : AcksNotification b.cfg features) : (b.ackedFeatures features).Inv := by
  have hacked := hasNotification_eq hoffered hacks
  have hsame : hasNotification features = hasNotification b.acked := hacked.trans h.acked.symm
  refine ⟨h.alive, h.enabled, h.vring, hacked, h.notified, fun x hx => ?_, fun x hx => ?_⟩
  · exact (isRequestQueue_congr hsame x.1).mpr (h.server x hx)
  · exact h.owned x ((isRequestQueue_congr hsame x.1).mp hx)

theorem Backend.Inv.updateMemory {b : Backend} (h : b.Inv) (mem : Nat) :
    (b.updateMemory mem).Inv := by
  refine ⟨h.alive, ?_, ?_, h.acked, h.notified, h.server, h.owned⟩
  all_goals unfold Backend.updateMemory; dsimp only; split
  · exact h.enabled
  · exact h.enabled
  · exact h.vring
  · exact h.vring

/-- **What the guest may acknowledge is what it should, and no request fails.** -/
def Agreed (cfg : BackendConfig) (ok : UInt64 → Prop) (mayFail : Chain → Prop) : Prop :=
  ∀ features, features &&& cfg.features = features → ok features →
    AcksNotification cfg features ∧ ∀ chain, ¬ mayFail chain

theorem QueueStep.inv {b b' : Backend} (hs : QueueStep ok mayFail b b')
    (hagreed : Agreed b.cfg ok mayFail) (hnever : ∀ chain, ¬ mayFail chain) (h : b.Inv) :
    b'.cfg = b.cfg ∧ b'.Inv := by
  cases hs with
  | ackedFeatures features hoffered hok halive =>
    exact ⟨rfl, h.ackedFeatures hoffered (hagreed features hoffered hok).1⟩
  | setEventIdx enabled halive =>
    exact ⟨rfl, h.alive, h.enabled, h.vring, h.acked, h.notified, h.server, h.owned⟩
  | updateMemory mem halive => exact ⟨rfl, h.updateMemory mem⟩
  | offer ring chains hmem hring halive => exact ⟨rfl, h.offer chains⟩
  | event readable deviceEvent arrivals server hserver hring halive =>
    refine h.handleEvent readable deviceEvent arrivals fun chain => ?_
    exact Option.isSome_iff_ne_none.mpr fun hnone => hnever chain (hserver chain hnone)
  | finish k answer hanswer halive =>
    by_cases hk : k < b.inFlight.length
    · cases answer with
      | none => exact absurd (hanswer rfl _ (getElem?_eq_getElem hk)) (hnever _)
      | some len =>
        obtain ⟨hinv, heq⟩ := h.finish hk len
        exact ⟨by rw [heq], hinv⟩
    · have hnone : b.inFlight[k]? = none := getElem?_eq_none (Nat.le_of_not_lt hk)
      rw [Backend.finish, hnone]
      exact ⟨rfl, h⟩
  | send needed halive => exact h.send needed

theorem QueueReachable.inv {b : Backend} (h : QueueReachable cfg ok mayFail b)
    (hagreed : Agreed cfg ok mayFail) : (b.cfg = cfg ∧ b.Inv) ∧ ∀ chain, ¬ mayFail chain := by
  induction h with
  | start features hoffered hok =>
    obtain ⟨hacks, hnever⟩ := hagreed features hoffered hok
    exact ⟨⟨rfl, BackendConfig.start_inv hoffered hacks⟩, hnever⟩
  | step _ hs ih =>
    obtain ⟨⟨hcfg, hinv⟩, hnever⟩ := ih
    obtain ⟨hcfg', hinv'⟩ := hs.inv (hcfg ▸ hagreed) hnever hinv
    exact ⟨⟨hcfg'.trans hcfg, hinv'⟩, hnever⟩

/-- The invariant gives the queues their roles. -/
theorem Backend.Inv.roles {b : Backend} (h : b.Inv) : QueueRoles b where
  alive := h.alive
  silent hnot needed := by
    have henabled : b.notifier.enabled = false := by rw [h.enabled, ← h.acked, hnot]
    simp [Backend.send, henabled]
  notifier x hx := ⟨h.acked.trans (h.notified x hx).1, (h.notified x hx).2⟩
  server := h.server
  accounted := h.owned
  served hmem ring hring arrivals server hserver := by
    obtain ⟨processQueue, hpass, heq⟩ := Backend.handleEvent_eq hserver b
    have hring' := hring
    rw [IsRequestQueue, h.requestQueue_eq] at hring'
    have hempty := Backend.handleEventWith_empty hpass hring' hmem h.alive arrivals
    have hinv := h.handleEvent true ring arrivals hserver
    rw [heq] at hinv ⊢
    refine ⟨hempty.1, hinv.2.answersAll ?_ hempty.2⟩
    refine (isRequestQueue_congr ?_ ring).mpr hring
    rw [hinv.2.acked, hinv.1, h.acked]

/-- A guest makes one request available on a queue, and kicks it. -/
def BackendConfig.kicked (cfg : BackendConfig) (features : UInt64) (ring : Nat) (chain : Chain)
    (server : Chain → Option Nat) : Backend :=
  (Backend.handleEvent (((cfg.start features).updateMemory 0).offer ring [chain]) true ring []
    server).2

theorem kicked_reachable {features : UInt64} {ring : Nat} {server : Chain → Option Nat}
    (hring : ring < 2) (hserver : ∀ chain, server chain = none → mayFail chain)
    (hoffered : features &&& cfg.features = features) (hok : ok features) (chain : Chain) :
    QueueReachable cfg ok mayFail (cfg.kicked features ring chain server) := by
  have hmem : ring ∈ guestQueues features := by
    unfold guestQueues
    split <;> simp <;> omega
  refine .step (.step (.step (.start features hoffered hok) (.updateMemory _ 0 rfl))
    (.offer _ ring [chain] rfl hmem rfl)) ?_
  exact .event _ true ring [] _ hserver (.inl hmem) rfl

/-- The daemon with the flag gives the ring to the notifier, and the request with it. -/
theorem kicked_send (hflag : cfg.notifyInvalidate = true) (features : UInt64) (chain : Chain)
    (server : Chain → Option Nat) (needed : Nat) :
    (cfg.kicked features 1 chain server).exited = false ∧
      ((cfg.kicked features 1 chain server).send needed).2.acked = features ∧
      ((cfg.kicked features 1 chain server).send needed).2.notified = [(1, chain)] := by
  obtain ⟨flag, pool⟩ := cfg
  obtain rfl : flag = true := hflag
  have hinstalled : (BackendConfig.kicked ⟨true, pool⟩ features 1 chain server) =
      Backend.install (((BackendConfig.start ⟨true, pool⟩ features).updateMemory 0).offer 1 [chain])
        1 0 := by
    cases pool <;> rfl
  rw [hinstalled]
  refine ⟨rfl, ?_⟩
  obtain ⟨headIndex, writable⟩ := chain
  cases writable with
  | none => exact ⟨rfl, rfl⟩
  | some have_ =>
    by_cases hsmall : have_ < needed <;>
      simp [Backend.send, Backend.install, Backend.offer, Backend.updateMemory,
        BackendConfig.start, Backend.ackedFeatures, hsmall]

/-- One request that fails ends the daemon. -/
theorem exits_of_mayFail {features : UInt64} (hoffered : features &&& cfg.features = features)
    (hok : ok features) {chain : Chain} (hfail : mayFail chain) :
    ∃ b, QueueReachable cfg ok mayFail b ∧ b.exited = true := by
  let server : Chain → Option Nat := fun x => if x = chain then none else some 0
  have hserver : ∀ x, server x = none → mayFail x := by
    intro x hx
    by_cases heq : x = chain
    · rwa [heq]
    · rw [show server x = some 0 from if_neg heq] at hx
      cases hx
  have hreach : QueueReachable cfg ok mayFail (cfg.kicked features 0 chain server) :=
    kicked_reachable (by decide) hserver hoffered hok chain
  obtain ⟨flag, pool⟩ := cfg
  cases pool with
  | true =>
    refine ⟨_, hreach.step (.finish _ 0 none ?_ ?_), ?_⟩
    · rintro - x hx
      cases flag <;> cases hx <;> exact hfail
    · cases flag <;> rfl
    · cases flag <;> rfl
  | false =>
    refine ⟨_, hreach, ?_⟩
    have hnone : server chain = none := if_pos rfl
    cases flag <;> simp [BackendConfig.kicked, Backend.handleEvent, Backend.handleEventSerial,
      Backend.handleEventWith, Backend.processQueueSerial, Backend.serveChains, Backend.offer,
      Backend.updateMemory, BackendConfig.start, Backend.ackedFeatures, hnone,
      HIPRIO_QUEUE_EVENT, NOTIF_QUEUE_EVENT]

/-- **The queues have the negotiated roles in every run, exactly if the guest acknowledges
notifications whenever the daemon offers them, and `process_message` does not fail.**  `ok`
says which feature words the guest may acknowledge. -/
theorem queue_roles_iff (cfg : BackendConfig) (ok : UInt64 → Prop) (mayFail : Chain → Prop) :
    (∀ b, QueueReachable cfg ok mayFail b → QueueRoles b) ↔ Agreed cfg ok mayFail := by
  constructor
  · intro hroles features hoffered hok
    refine ⟨fun hflag => ?_, fun chain hfail => ?_⟩
    · obtain ⟨halive, hacked, hnotified⟩ :=
        kicked_send hflag features ⟨0, none⟩ (fun _ => some 0) 0
      have hkicked : QueueReachable cfg ok mayFail
          (cfg.kicked features 1 ⟨0, none⟩ fun _ => some 0) :=
        kicked_reachable (by decide) (fun _ h => by cases h) hoffered hok _
      have hnotif := ((hroles _ (hkicked.step (.send _ 0 halive))).notifier (1, ⟨0, none⟩)
        (by simp [hnotified])).1
      rwa [hacked] at hnotif
    · obtain ⟨b, hreach, hexited⟩ := exits_of_mayFail hoffered hok hfail
      rw [(hroles b hreach).alive] at hexited
      cases hexited
  · intro hagreed b hreach
    exact (hreach.inv hagreed).1.2.roles

/-- **The notifier takes a request.**  The daemon runs with `--notify-invalidate`, and the
guest acknowledges version 1 only.  It puts a request of 4096 writable bytes on queue 1 and
kicks it; the next notification of 40 bytes is written into the request, which is never
answered. -/
theorem notifier_consumes_request :
    let cfg : BackendConfig := ⟨true, false⟩
    let request : Chain := ⟨7, some 4096⟩
    let b := cfg.kicked (featureBit 32) 1 request fun _ => some 0
    hasNotification (featureBit 32) = false ∧ requestQueue (featureBit 32) = 1 ∧
      QueueReachable cfg (fun _ => True) (fun _ => False) b ∧
      b.rings 1 = [request] ∧ b.inFlight = [] ∧ b.answered = [] ∧
      (b.send 40).1 = .ok () ∧
      QueueReachable cfg (fun _ => True) (fun _ => False) (b.send 40).2 ∧
      (b.send 40).2.notified = [(1, request)] ∧ (b.send 40).2.rings 1 = [] ∧
      (b.send 40).2.answered = [] ∧ ¬ QueueRoles (b.send 40).2 := by
  intro cfg request b
  have hreach : QueueReachable cfg (fun _ => True) (fun _ => False) b :=
    kicked_reachable (by decide) (fun _ h => by cases h) (by decide) trivial _
  have hnotified : (b.send 40).2.notified = [(1, request)] := (kicked_send rfl _ _ _ _).2.2
  have hacked : hasNotification (b.send 40).2.acked = false := by decide
  refine ⟨by decide, by decide, hreach, rfl, rfl, rfl, rfl, hreach.step (.send _ 40 rfl),
    hnotified, rfl, rfl, fun hroles => ?_⟩
  have := (hroles.notifier (1, request) (by simp [hnotified])).1
  rw [hacked] at this
  cases this

end Virtiofsd
