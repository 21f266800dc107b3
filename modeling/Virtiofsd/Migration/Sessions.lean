/-
  # What sessions are made of

  Besides requests and the two ends of a migration, threads of the daemon start and end
  sessions: INIT, DESTROY, and the reset of the device, which is DESTROY.  `SessionParts` is what
  has to be known for a compositional property to hold of all of them.
-/
import Virtiofsd.Migration.Parts
import Virtiofsd.Migration.Reading

namespace Virtiofsd

open Lib

/-- What a thread of the daemon does. -/
inductive SessionJob where
  | request (r : Request)
  | prepare (fuel : Nat)
  | serialize (mountPaths : List (Nat × Name)) (fuel : Nat)
  | init (capable : FsOptions)
  | destroy

/-- The program of a job, and the state that it sends. -/
def SessionJob.prog (x : Export) (cfg : Config) : SessionJob → SessionM (Option SerializedFs)
  | request r => (liftM (x.serve cfg r) : SessionM Reply).bind fun _ => .ret none
  | prepare fuel => (liftM (prepareSerialization cfg fuel) : SessionM Unit).bind fun _ => .ret none
  | serialize mountPaths fuel =>
    (liftM (serializeState cfg mountPaths fuel) : SessionM SerializedFs).bind fun state =>
      .ret (some state)
  | init capable => (PassthroughFs.init cfg capable).bind fun _ => .ret none
  | destroy => PassthroughFs.destroy.bind fun _ => .ret none

/-- A request comes with a reader or a writer of the server's. -/
def SessionJob.OverChain : SessionJob → Prop
  | request r => r.OverChain
  | _ => True

/-- **What the start and the end of a session are made of.**  The root has an id that is not
drawn, and an info without a parent. -/
structure SessionParts (C : CallClass) (W : ∀ {α : Type}, SessionM α → Prop) : Prop
    extends Compositional W where
  files : ∀ cfg, FileParts cfg C fun {α : Type} (p : NeutralM α) => W (liftM p : SessionM α)
  store : ∀ f v, f ≠ .trackMigrationInfo → W (liftM (query (.store f v)) : SessionM Unit)
  clearHandles : W (liftM (query .clearHandles) : SessionM Unit)
  clear : W (sessionAct .clear)
  newRoot : ∀ c : Cell, c.data.inode = ROOT_ID → infoParent c.migrationInfo = none →
    W (sessionAct (.newInode c))

/-- **What everything in the daemon is made of.** -/
structure DaemonParts (W : ∀ {α : Type}, SessionM α → Prop) : Prop
    extends SessionParts .offGuest W where
  jobs : JobParts fun {α : Type} (p : FsM α) => W (liftM p : SessionM α)
  track : ∀ v, W (liftM (query (.store .trackMigrationInfo v)) : SessionM Unit)

namespace JobParts

variable {W : ∀ {α : Type}, FsM α → Prop} {cfg : Config} (h : JobParts W)

include h

theorem readInodes : ∀ (fuel : Nat) (last : Option Inode),
    W (liftM (readInodes cfg fuel last) : FsM (List SerializedInode))
  | 0, _ => h.ret _
  | fuel + 1, last => by
    have hn := h.neutral
    have hinode : ∀ r, W (liftM (readInode cfg r) : FsM SerializedInode) := by
      intro r
      refine hn.bind (h.query (.loadRefcount r) trivial) fun refcount => ?_
      refine hn.bind (h.query (.lockInfo r) trivial) fun _ => ?_
      refine hn.bind (h.query (.readInfo r) trivial) fun info => ?_
      refine hn.bind ?_ fun _ => hn.bind (h.query (.unlockInfo r) trivial) fun _ => ?_
      · unfold assertRootMarked
        split
        · exact hn.ret _
        · exact h.panic _
      split
      · exact hn.ret _
      · exact hn.map (h.query (.loadRefcount r) trivial)
    refine hn.bind (h.query (.nextAfter last) trivial) fun r => ?_
    cases r with
    | none => exact hn.ret _
    | some r =>
      refine hn.bind (hinode r) fun n => ?_
      exact hn.bind (readInodes fuel (some r.data.inode)) fun rest => hn.ret _

theorem readState (mountPaths : List (Nat × Name)) (fuel : Nat) :
    W (liftM (readState cfg mountPaths fuel) : FsM SerializedFs) := by
  have hn := h.neutral
  have hload := fun f => h.query (.load f) trivial
  refine hn.bind (h.query .readHandles trivial) fun handles => ?_
  refine hn.bind (h.readInodes fuel none) fun inodes => ?_
  refine hn.bind (h.query .loadNextInode trivial) fun nextInode => ?_
  refine hn.bind (h.query .loadNextHandle trivial) fun nextHandle => ?_
  refine hn.bind ?_ fun opts => hn.ret _
  refine hn.bind (hload .writeback) fun _ => hn.bind (hload .announceSubmounts) fun _ => ?_
  exact hn.bind (hload .posixAcl) fun _ => hn.map (hload .supGroupExtension)

theorem serializeState (mountPaths : List (Nat × Name)) (fuel : Nat)
    (hstore : W (liftM (Virtiofsd.query (.store .trackMigrationInfo false)) : FsM Unit)) :
    W (serializeState cfg mountPaths fuel) := by
  have hclear := h.refAct .clearMigrationInfo trivial
  have hread : W ((liftM (Virtiofsd.readState cfg mountPaths fuel) : FsM SerializedFs).bind
      fun state => (Virtiofsd.refAct .clearMigrationInfo).bind fun _ => .ret state) :=
    h.bind (h.readState mountPaths fuel) fun state => h.bind hclear fun _ => h.ret state
  refine h.bind hstore fun _ => ?_
  split
  · exact h.bind (h.onErr (h.confirmPaths fuel) hclear) fun _ => hread
  · exact hread

end JobParts

namespace SessionParts

variable {C : CallClass} {W : ∀ {α : Type}, SessionM α → Prop} {cfg : Config}
  (h : SessionParts C W)

include h

theorem destroy : W PassthroughFs.destroy := by
  refine h.bind h.clearHandles fun _ => ?_
  refine h.bind h.clear fun _ => ?_
  refine h.bind (h.store .writeback false nofun) fun _ => ?_
  refine h.bind (h.store .announceSubmounts false nofun) fun _ => ?_
  refine h.bind (h.store .posixAcl false nofun) fun _ => ?_
  exact h.store .supGroupExtension false nofun

theorem openRootNode : W (PassthroughFs.openRootNode cfg) := by
  refine h.bind (h.files cfg).openRoot fun x => ?_
  have hinfo : infoParent (PassthroughFs.rootInfo x.2.2) = none := by
    cases x.2.2 <;> rfl
  refine h.bind (h.newRoot _ rfl hinfo) fun inserted => ?_
  cases inserted with
  | true => exact h.ret ()
  | false => exact h.bind ((h.files cfg).dropFile _) fun _ => h.err _

theorem negotiateOptions (capable : FsOptions) :
    W (liftM (PassthroughFs.negotiateOptions cfg capable) : SessionM FsOptions) := by
  have hn := (h.files cfg).toCompositional
  -- Every option that is negotiated is stored, or it is not.
  have hstore : ∀ {α : Type} (c : Bool) (f : FsFlag) (_ : f ≠ .trackMigrationInfo)
      {p : NeutralM α}, W (liftM p : SessionM α) →
      W (liftM (if c then (query (.store f true)).bind fun _ => p else p : NeutralM α) :
        SessionM α) := by
    intro α c f hf p hp
    cases c with
    | true => exact hn.bind (h.store f true hf) fun _ => hp
    | false => exact hp
  refine hstore _ .writeback nofun (hstore _ .announceSubmounts nofun ?_)
  refine hn.bind (hn.ofExcept _) fun x => ?_
  refine hstore _ .posixAcl nofun (hn.bind (hn.ofExcept _) fun y => ?_)
  exact hstore _ .supGroupExtension nofun (hn.ret _)

theorem init (capable : FsOptions) : W (PassthroughFs.init cfg capable) := by
  refine h.bind h.destroy fun _ => ?_
  exact h.bind h.openRootNode fun _ => h.negotiateOptions capable

end SessionParts

/-- **Everything that the threads of a daemon do.** -/
theorem DaemonParts.job {W : ∀ {α : Type}, SessionM α → Prop} (h : DaemonParts W) (x : Export)
    (cfg : Config) (job : SessionJob) (hjob : job.OverChain) : W (job.prog x cfg) := by
  cases job with
  | request r => exact h.map (h.jobs.request x cfg r hjob)
  | prepare fuel =>
    have hstore := h.track true
    exact h.map (h.jobs.prepareSerialization fuel hstore)
  | serialize mountPaths fuel =>
    have hstore := h.track false
    exact h.map (h.jobs.serializeState mountPaths fuel hstore)
  | init capable => exact h.map (h.init capable)
  | destroy => exact h.map h.destroy

end Virtiofsd
