/-
  # Open modes across a migration

  The source records the flags of every handle, the destination opens the handle's inode
  with them.  The recorded flags are not always those the source has opened its descriptor
  with: `open_inode` changes them after `do_open` has recorded them, and CREATE records the
  flags as the guest has sent them.
-/
import Virtiofsd.Migration.Deserialize
import Virtiofsd.Passthrough.Opens

namespace Virtiofsd

open Lib List Prog

variable {cfg : Config} {writeback : Bool} {flags : UInt32}

/-! ## 1. The handle on both sides -/

/-- **A handle of the source**, from OPEN, OPENDIR or CREATE with the host's flags `flags`. -/
structure OpenedHandle (cfg : Config) (writeback : Bool) (flags : UInt32) where
  request : Request
  asked : request.hostFlags cfg = some flags
  reply : Reply
  log : List (Sigma Act.Ans)
  served : (PassthroughFs.serve cfg request).Ends (.ok reply) log
  handle : Handle
  returned : reply.handle = some handle
  origin : Fd → HostCall
  openedBy : OpenedBy origin writeback (neutralLog log)

/-- Its entry in the handle table, with the descriptor. -/
structure OpenedHandle.Enter (x : OpenedHandle cfg writeback flags) (data : HandleData) (fd : Fd) :
    Prop where
  entered : ⟨.query (.insertHandle x.handle data), ()⟩ ∈ neutralLog x.log
  file : data.file = .ok fd

/-- The handle as `Handle` of the migration stream. -/
def HandleData.asSerialized (handle : Handle) (data : HandleData) : SerializedHandle :=
  ⟨handle, data.inode, data.migrationFlags⟩

/-- **A handle of the destination**: `deserialize_with_fs` has returned. -/
structure RestoredHandle (h : SerializedHandle) where
  cfg : Config
  writeback : Bool
  log : List (Sigma NeutralAct.Ans)
  restored : (h.deserializeWithFs cfg).Ends (.ok ()) log
  origin : Fd → HostCall
  openedBy : OpenedBy origin writeback log

/-! ## 2. What the destination opens -/

variable {origin : Fd → HostCall} {log : List (Sigma NeutralAct.Ans)} {fd : Fd}

theorem of_errContext_ends {α : Type} {p : NeutralM α} {msg : String} {a : α}
    (h : (errContext p msg).Ends (.ok a) log) : ∃ own, p.Ends (.ok a) own ∧ own ⊆ log := by
  obtain ⟨r, log₁, log₂, hp, hret, rfl⟩ := of_ends_bind h
  rcases of_ends_attempt hp with ⟨a', rfl, hown⟩ | ⟨e, rfl, -⟩
  · obtain ⟨hout, rfl⟩ := of_ends_ret hret
    cases hout
    exact ⟨log₁, hown, subset_append_left _ _⟩
  · exact absurd hret not_ends_err

theorem of_openHandle_ends {h : SerializedHandle} {d : InodeData}
    (hopen : (h.openFile d).Ends (.ok fd) log) (ho : OpenedBy origin writeback log) :
    (origin fd).OpensInode h.flags := by
  obtain ⟨fd', log₁, log₂, hfile, hrest, rfl⟩ := of_ends_bind hopen
  obtain ⟨_, log₃, log₄, -, hret, rfl⟩ := of_ends_bind hrest
  obtain ⟨hout, rfl⟩ := of_ends_ret hret
  cases hout
  obtain ⟨own, hown, hsub⟩ := of_errContext_ends hfile
  exact of_openFile_ends hown (ho.mono fun x hx => mem_append_left _ (hsub hx))

/-- **The destination opens the inode with the recorded flags**, if it opens it at all. -/
theorem RestoredHandle.exists_entered {h : SerializedHandle} (y : RestoredHandle h) :
    ∃ data, ⟨.query (.insertHandle h.id data), ()⟩ ∈ y.log ∧
      ∀ fd, data.file = .ok fd → (y.origin fd).OpensInode h.flags := by
  obtain ⟨found, log₁, log₂, -, hrest, hlog⟩ := of_ends_bind y.restored
  have ho := y.openedBy
  rw [hlog] at ho ⊢
  cases found with
  | none => exact absurd hrest not_ends_err
  | some inode =>
    obtain ⟨file, log₃, log₄, hfile, hinsert, rfl⟩ := of_ends_bind hrest
    have hopens : ∀ fd, file = .ok fd → (y.origin fd).OpensInode h.flags := by
      rintro fd rfl
      rcases of_ends_attempt hfile with ⟨fd', hfd, hopen⟩ | ⟨e, he, -⟩
      · cases hfd
        refine of_openHandle_ends hopen (ho.mono fun x hx => ?_)
        exact mem_append_right _ (mem_append_left _ hx)
      · cases he
    -- a file that cannot be opened ends the migration, or its handle is entered as invalid
    have hdone : (query (.insertHandle h.id ⟨h.inode, file, fileType inode.data.mode,
        h.flags⟩)).Ends (.ok ()) log₄ := by
      cases file with
      | ok fd => exact hinsert
      | error e =>
        cases hmode : y.cfg.migrationOnError with
        | guestError =>
          rw [hmode] at hinsert
          exact hinsert
        | abort =>
          rw [hmode] at hinsert
          exact absurd hinsert not_ends_err
    obtain rfl := of_ends_perform hdone
    refine ⟨⟨h.inode, file, fileType inode.data.mode, h.flags⟩, ?_, hopens⟩
    exact mem_append_right _ (mem_append_right _ mem_cons_self)

/-! ## 3. Whether the open mode survives -/

/-- When the destination opens a handle with exactly the flags of the source's descriptor,
apart from the creation flags.  A descriptor is one of a new file (`creates`) or of an inode
that was there. -/
def FlagsKept (cfg : Config) (writeback : Bool) (flags : UInt32) (source destination : HostCall) :
    Prop :=
  if source.creates = true then
    flags &&& O_CLOEXEC ≠ 0 ∧ flags &&& O_APPEND = 0 ∧ flags &&& O_NOFOLLOW ≠ 0 ∧
      destination.throughProc = false
  else
    ModeKept cfg writeback flags ∧ flags &&& O_CLOEXEC ≠ 0 ∧
      (flags &&& O_NOFOLLOW = 0 ∨ source.throughProc = destination.throughProc)

/-- When access mode, `O_APPEND` and `O_DIRECT` are the same on both sides. -/
def StatusKept (cfg : Config) (writeback : Bool) (flags : UInt32) (source : HostCall) : Prop :=
  if source.creates = true then flags &&& O_APPEND = 0 else ModeKept cfg writeback flags

/-- **Open modes across a migration.**  For every handle of the source and every destination
that opens it: exactly when the flags are kept, and exactly when the status is. -/
theorem open_mode_survives_iff (x : OpenedHandle cfg writeback flags) :
    ∃ data fd, x.Enter data fd ∧ ∀ y : RestoredHandle (data.asSerialized x.handle),
      ∃ data', ⟨.query (.insertHandle x.handle data'), ()⟩ ∈ y.log ∧
        ∀ fd', data'.file = .ok fd' →
          ((y.origin fd').openFlags = (x.origin fd).openFlags &&& ~~~creationFlags ↔
            FlagsKept cfg writeback flags (x.origin fd) (y.origin fd')) ∧
          ((y.origin fd').openFlags &&& statusFlags = (x.origin fd).openFlags &&& statusFlags ↔
            StatusKept cfg writeback flags (x.origin fd)) := by
  obtain ⟨data, fd, hinsert, hentered⟩ :=
    entered_of_serve_ends x.asked x.served x.returned x.openedBy
  cases hentered with
  | opened horigin =>
    refine ⟨_, fd, ⟨hinsert, rfl⟩, fun y => ?_⟩
    obtain ⟨data', hinsert', hopens⟩ := y.exists_entered
    refine ⟨data', hinsert', fun fd' hfd' => ?_⟩
    have hopen := hopens fd' hfd'
    unfold FlagsKept StatusKept
    rw [hopen.openFlags, horigin.openFlags, horigin.not_creates]
    simp only [Bool.false_eq_true, ↓reduceIte]
    exact ⟨reopened_eq_opened_iff, reopened_status_iff⟩
  | created horigin =>
    refine ⟨_, fd, ⟨hinsert, rfl⟩, fun y => ?_⟩
    obtain ⟨data', hinsert', hopens⟩ := y.exists_entered
    refine ⟨data', hinsert', fun fd' hfd' => ?_⟩
    have hopen := hopens fd' hfd'
    unfold FlagsKept StatusKept
    rw [hopen.openFlags, horigin.openFlags, horigin.creates]
    simp only [↓reduceIte]
    exact ⟨reopened_eq_created_iff, recreated_status_iff⟩

/-! ## 4. A file opened for writing, with a writeback cache -/

/-- OPEN of the file `a` with `O_WRONLY`: the source opens it for reading and writing. -/
def writeOnlyHandle : OpenedHandle writebackConfig true O_WRONLY where
  request := .file (.open 2 false O_WRONLY)
  asked := rfl
  reply := .file (.opened (some 1) 0)
  log := (PassthroughFs.serve writebackConfig (.file (.open 2 false O_WRONLY))).trace World.perform
    createdWorld
  served := run_ends World.perform _ createdWorld
  handle := 1
  returned := rfl
  origin := writeOnlyOrigin
  openedBy := {
    opened := by
      intro x hx
      obtain rfl : x = (17, writeOnlyOrigin 17) := mem_singleton.mp hx
      rfl
    loaded := by decide +kernel }

/-- Its entry in the handle table. -/
def writeOnlyData : HandleData := ⟨2, .ok 17, S_IFREG, O_WRONLY⟩

/-- The destination, with the same inode. -/
def writeOnlyRestored : RestoredHandle (writeOnlyData.asSerialized 1) where
  cfg := writebackConfig
  writeback := true
  log := ((writeOnlyData.asSerialized 1).deserializeWithFs writebackConfig).trace
    (fun a => World.perform (.neutral a)) createdWorld
  restored := run_ends (fun a => World.perform (.neutral a))
    ((writeOnlyData.asSerialized 1).deserializeWithFs writebackConfig) createdWorld
  origin := fun _ => .reopen 15 O_WRONLY
  openedBy := {
    opened := by
      intro x hx
      obtain rfl : x = (17, .reopen 15 O_WRONLY) := mem_singleton.mp hx
      rfl
    loaded := by decide +kernel }

/-- **With a writeback cache, a handle loses its right to read**: the destination opens for
writing only what the source has opened for reading, too. -/
theorem migration_loses_read_access :
    ∃ data', writeOnlyHandle.Enter writeOnlyData 17 ∧
      ⟨.query (.insertHandle 1 data'), ()⟩ ∈ writeOnlyRestored.log ∧ data'.file = .ok 17 ∧
      (writeOnlyRestored.origin 17).openFlags &&& statusFlags ≠
        (writeOnlyHandle.origin 17).openFlags &&& statusFlags ∧
      (writeOnlyRestored.origin 17).openFlags ≠
        (writeOnlyHandle.origin 17).openFlags &&& ~~~creationFlags := by
  have hsource : (neutralLog writeOnlyHandle.log)[5]? =
      some ⟨.query (.insertHandle 1 writeOnlyData), ()⟩ := rfl
  have hdestination : writeOnlyRestored.log[3]? =
      some ⟨.query (.insertHandle 1 writeOnlyData), ()⟩ := rfl
  refine ⟨writeOnlyData, ⟨?_, rfl⟩, ?_, rfl, ?_, ?_⟩
  · exact mem_of_getElem? hsource
  · exact mem_of_getElem? hdestination
  · decide
  · decide

end Virtiofsd
