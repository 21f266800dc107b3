/-
  # What applying a migrated state touches

  Besides the inode store, restoring inodes only looks at it and takes or gives back
  descriptors; restoring handles inserts handles.  Everything else of the shared state is as it
  was: the flags that `NegotiatedOpts::apply` has stored, and the counters for new ids until
  they are stored at the end.
-/
import Virtiofsd.Migration.Deserialize
import Virtiofsd.Passthrough.Parts

namespace Virtiofsd

open Lib

/-! ## 1. The queries -/

/-- The queries of restoring inodes and handles. -/
def Query.Restores : Query → Prop
  | .get _ => True
  | .allocateFd => True
  | .releaseFd => True
  | .insertHandle _ _ => True
  | _ => False

def NeutralAct.Restores : NeutralAct → Prop
  | .host _ => True
  | .query q => q.Restores

def Act.Restores : Act → Prop
  | .neutral a => a.Restores
  | .ref _ => True

def SessionAct.Restores : SessionAct → Prop
  | .act a => a.Restores
  | _ => True

/-- Actions that restore, enter no inode through a lookup, and are no FORGET. -/
def Act.RestoresOld : Act → Prop
  | .neutral a => a.Restores
  | .ref (.getOrInsert _ _) => False
  | .ref (.forgetOne _ _) => False
  | .ref (.forgetMany _) => False
  | .ref _ => True

/-- Actions that restore, and enter only inodes with certain ids. -/
def SessionAct.RestoresIds (ids : Inode → Prop) : SessionAct → Prop
  | .act a => a.RestoresOld
  | .newInode c => ids c.data.inode
  | _ => True

variable {α β : Type}

/-- A program that makes no other query. -/
abbrev NeutralRestoring (p : NeutralM α) : Prop :=
  Keeps NeutralAct.Restores (fun _ _ => True) p fun _ => True

abbrev FsRestoring (p : FsM α) : Prop := Keeps Act.Restores (fun _ _ => True) p fun _ => True

abbrev SessionRestoring (p : SessionM α) : Prop :=
  Keeps SessionAct.Restores (fun _ _ => True) p fun _ => True

theorem host_restoring (c : HostCall) : NeutralRestoring (host c) := Obeys.perform trivial

theorem query_restoring (q : Query) (h : q.Restores) : NeutralRestoring (query q) := Obeys.perform h

variable {p : NeutralM α}

theorem fs_restoring (h : NeutralRestoring p) : FsRestoring (liftM p : FsM α) :=
  h.mapAct (fun _ ha => ha) fun _ _ _ => trivial

theorem session_restoring {p : FsM α} (h : FsRestoring p) :
    SessionRestoring (liftM p : SessionM α) :=
  h.mapAct (fun _ ha => ha) fun _ _ _ => trivial

theorem neutral_session_restoring (h : NeutralRestoring p) :
    SessionRestoring (liftM p : SessionM α) := session_restoring (fs_restoring h)

/-- A program that enters only inodes with certain ids. -/
abbrev SessionEntering (ids : Inode → Prop) (p : SessionM α) : Prop :=
  Keeps (SessionAct.RestoresIds ids) (fun _ _ => True) p fun _ => True

variable {ids : Inode → Prop}

theorem SessionEntering.restoring {p : SessionM α} (h : SessionEntering ids p) :
    SessionRestoring p := by
  refine h.weaken (fun a ha => ?_) fun _ _ _ => trivial
  rcases a with (n | r) | _
  · exact ha
  all_goals exact trivial

variable {Q : α → Prop}

theorem session_entering {p : FsM α} (h : Keeps Act.RestoresOld (fun _ _ => True) p Q) :
    Keeps (SessionAct.RestoresIds ids) (fun _ _ => True) (liftM p : SessionM α) Q :=
  h.mapAct (fun _ ha => ha) fun _ _ _ => trivial

theorem fs_restoresOld (h : Keeps NeutralAct.Restores (fun _ _ => True) p Q) :
    Keeps Act.RestoresOld (fun _ _ => True) (liftM p : FsM α) Q :=
  h.mapAct (fun _ ha => ha) fun _ _ _ => trivial

theorem neutral_entering (h : Keeps NeutralAct.Restores (fun _ _ => True) p Q) :
    Keeps (SessionAct.RestoresIds ids) (fun _ _ => True) (liftM p : SessionM α) Q :=
  session_entering (fs_restoresOld h)

theorem sessionAct_entering (a : SessionAct) (h : a.RestoresIds ids) :
    SessionEntering ids (sessionAct a) :=
  Obeys.perform h

/-- What stays while inodes and handles are restored. -/
structure SameCounters (fs fs' : PassthroughFs) : Prop where
  flags : fs'.flags = fs.flags
  nextInode : fs'.nextInode = fs.nextInode
  nextHandle : fs'.nextHandle = fs.nextHandle

variable (fs : PassthroughFs)

theorem SameCounters.refl : SameCounters fs fs := ⟨rfl, rfl, rfl⟩

theorem SameCounters.trans {fs₁ fs₂ fs₃ : PassthroughFs} (h : SameCounters fs₁ fs₂)
    (h' : SameCounters fs₂ fs₃) : SameCounters fs₁ fs₃ :=
  ⟨h'.flags.trans h.flags, h'.nextInode.trans h.nextInode, h'.nextHandle.trans h.nextHandle⟩

theorem sameCounters_withInodes (s : InodeStoreInner) :
    SameCounters fs (fs.withInodes s) := ⟨rfl, rfl, rfl⟩

theorem answer_sameCounters {q : Query} (h : q.Restores) (fs : PassthroughFs) :
    SameCounters fs (PassthroughFs.answer q fs).2 := by
  cases q with
  | get i => exact .refl _
  | allocateFd =>
    simp only [PassthroughFs.answer]
    split
    · exact .refl _
    · exact ⟨rfl, rfl, rfl⟩
  | releaseFd | insertHandle => exact ⟨rfl, rfl, rfl⟩
  | _ => exact h.elim

theorem performSession_sameCounters {a : SessionAct} (h : a.Restores) (w : World) :
    SameCounters w.fs (w.performSession a).2.fs := by
  cases a with
  | act a =>
    rcases a with (c | q) | r
    · exact .refl _
    · exact answer_sameCounters h _
    · cases r with
      | leak | adopt => exact .refl _
      | _ => exact sameCounters_withInodes _ _
  | clear | storeRefcount => exact sameCounters_withInodes _ _
  | newInode c =>
    simp only [World.performSession]
    split
    · exact sameCounters_withInodes _ _
    · exact .refl _

theorem SessionRestoring.sameCounters {p : SessionM α} (hp : SessionRestoring p) (w : World) :
    SameCounters w.fs (p.run World.performSession w).2.fs :=
  (Obeys.run (I := fun w' : World => SameCounters w.fs w'.fs) hp
    (fun _ w' ha hw => ⟨trivial, hw.trans (performSession_sameCounters ha w')⟩) (.refl _)).2

/-! ## 2. Files -/

theorem restoring_parts (cfg : Config) :
    InodeParts cfg .offGuest fun {α : Type} (p : NeutralM α) => NeutralRestoring p :=
  inodeParts_of_panics (Keeps.compositional _ _) (fun _ => Keeps.panic)
    (fun c _ => host_restoring c) fun q hq => query_restoring q (by
      cases q <;> first | exact trivial | exact hq.elim)

theorem restoring_calls : HostParts .offGuest fun {α : Type} (p : NeutralM α) =>
    NeutralRestoring p := (restoring_parts .default).toHostParts

theorem openatStr_restoring (dir : Fd) (path : Name) (flags : UInt32) :
    NeutralRestoring (openatStr dir path flags) := by
  unfold openatStr
  split
  · exact Obeys.err
  · exact (host_restoring _).bind fun r _ => restoring_calls.errno r

/-! ## 3. Inodes -/

/-- A new inode that may be refused. -/
theorem newInode_entering {cell : Cell} (f : FileOrHandle) (e : IoError) (h : ids cell.data.inode) :
    SessionEntering ids ((sessionAct (.newInode cell)).bind fun inserted : Bool =>
      if !inserted then (liftM (dropFile f) : SessionM Unit).bind fun _ => .err e
      else .ret ()) := by
  refine (sessionAct_entering (.newInode cell) h).bind fun inserted _ => ?_
  cases inserted with
  | true => exact Obeys.ret trivial
  | false =>
    exact (neutral_entering ((restoring_parts .default).dropFile f)).bind fun _ _ => Obeys.err

theorem openRootNode_entering (cfg : Config) (h : ids ROOT_ID) :
    SessionEntering ids (PassthroughFs.openRootNode cfg) := by
  exact (neutral_entering (restoring_parts cfg).openRoot).bind fun _ _ => newInode_entering _ _ h

namespace SerializedInode

variable (cfg : Config) (n : SerializedInode)

/-- A program that restores this inode: what it returns has its id. -/
abbrev KeepsId (p : NeutralM InodeData) : Prop :=
  Keeps NeutralAct.Restores (fun _ _ => True) p fun d => d.inode = n.id

theorem checkFileHandle_restoring (d : InodeData) : NeutralRestoring (n.checkFileHandle d) := by
  unfold checkFileHandle
  split
  · exact Obeys.ret trivial
  · refine (restoring_calls.toSerializable d.fileOrHandle).bind fun fh _ => ?_
    split
    · exact Obeys.ret trivial
    · exact Obeys.err

theorem orInvalid_restored {r : Except IoError InodeData} (h : ∀ d, r = .ok d → d.inode = n.id) :
    n.KeepsId (n.orInvalid cfg r) := by
  cases r with
  | ok d => exact Obeys.ret (h d rfl)
  | error e =>
    unfold orInvalid deserializeInvalidInode
    cases cfg.migrationOnError with
    | abort => exact Obeys.err
    | guestError => exact Obeys.ret rfl

theorem openPath_restored (parent : InodeData) (filename : Name) :
    n.KeepsId (n.openPath cfg parent filename) := by
  refine (restoring_calls.getFile parent).bind fun dir _ => ?_
  refine (restoring_calls.errContext (openatStr_restoring dir filename _)).bind fun fd _ => ?_
  refine (restoring_calls.statx fd none).bind fun st _ => ?_
  refine ((restoring_parts cfg).getFileHandleOpt fd st).bind fun handle _ => ?_
  exact ((restoring_parts cfg).newFileOrHandle fd handle).bind fun _ _ => Obeys.ret rfl

theorem deserializePath_restored (parent : InodeRef) (filename : Name) :
    Keeps Act.RestoresOld (fun _ _ => True) (n.deserializePath cfg parent filename)
      fun d => d.inode = n.id :=
  (fs_restoresOld (n.openPath_restored cfg parent.data filename)).ensuring (Obeys.perform trivial)

theorem deserializeFileHandle_restored (mountFds : List (Nat × Nat))
    (handle : SerializableFileHandle) :
    n.KeepsId (n.deserializeFileHandle cfg mountFds handle) := by
  unfold deserializeFileHandle
  split
  · exact Obeys.err
  · by_cases hlen : maxHandleSize < handle.handle.length
    · simp only [hlen, if_true]
      exact Obeys.err
    · simp only [hlen, if_false]
      refine (restoring_calls.errContext
        ((host_restoring _).bind fun r _ => restoring_calls.errno r)).bind fun fd _ => ?_
      refine (restoring_calls.errContext (restoring_calls.statx fd none)).bind fun st _ => ?_
      split
      · exact (restoring_parts cfg).allocateFd.bind fun _ _ => Obeys.ret rfl
      · exact Obeys.ret rfl

theorem verified_restored {d : InodeData} (h : d.inode = n.id) :
    n.KeepsId (n.verified cfg d) := by
  refine (n.checkFileHandle_restoring d).attempt_bind (fun _ _ => Obeys.ret h) fun e => ?_
  exact ((restoring_parts .default).dropFile _).bind fun _ _ =>
    n.orInvalid_restored cfg fun _ hd => nomatch hd

variable (h : ids n.id)

include h

theorem insert_entering {d : InodeData} (hd : d.inode = n.id) : SessionEntering ids (n.insert d) :=
  newInode_entering _ _ (hd ▸ h)

theorem deserializeRootNode_entering : SessionEntering ids (n.deserializeRootNode cfg) := by
  unfold deserializeRootNode
  split
  · exact Keeps.panic
  · rename_i hroot
    split
    · exact Obeys.err
    · refine (openRootNode_entering cfg (not_not.mp hroot ▸ h)).bind fun _ _ => ?_
      refine (neutral_entering (query_restoring (.get ROOT_ID) trivial)).bind fun r _ => ?_
      cases r with
      | none => exact Keeps.panic
      | some root =>
        refine (sessionAct_entering (.storeRefcount root n.refcount) trivial).bind fun _ _ => ?_
        exact neutral_entering (n.checkFileHandle_restoring root.data)

/-- The end of an inode that has been looked for: it is inserted, possibly as invalid. -/
theorem insertFound_entering {found : Except IoError InodeData}
    (hfound : ∀ d, found = .ok d → d.inode = n.id) :
    SessionEntering ids ((liftM (n.orInvalid cfg found) : SessionM InodeData).bind fun d =>
      (n.insert d).bind fun _ => .ret true) :=
  (neutral_entering (n.orInvalid_restored cfg hfound)).bind fun _ hd =>
    (n.insert_entering h hd).map

theorem deserializeWithFs_entering (mountFds : List (Nat × Nat)) :
    SessionEntering ids (n.deserializeWithFs cfg mountFds) := by
  unfold deserializeWithFs
  split
  · split
    · exact Obeys.err
    · exact (n.deserializeRootNode_entering cfg h).map
  · next parent filename _ =>
    split
    · exact Obeys.err
    · refine (neutral_entering (query_restoring (.get parent) trivial)).bind fun r _ => ?_
      cases r with
      | none => exact Obeys.ret trivial
      | some p =>
        refine (session_entering (n.deserializePath_restored cfg p filename).attempt_ok).bind
          fun found hf => ?_
        refine (neutral_entering (n.orInvalid_restored cfg hf)).bind fun d hd => ?_
        refine (neutral_entering (n.verified_restored cfg hd)).bind fun d hd => ?_
        exact (n.insert_entering h hd).map
  · exact n.insertFound_entering cfg h fun _ hd => nomatch hd
  · next filename _ =>
    split
    · exact Obeys.err
    · have hnew : Keeps Act.RestoresOld (fun _ _ => True) (StrongInodeReference.new ROOT_ID).attempt
          fun _ => True := by
        refine Obeys.attempt (Q := fun _ => True) ?_
        refine (fs_restoresOld (query_restoring (.get ROOT_ID) trivial)).bind fun r _ => ?_
        cases r with
        | none => exact Obeys.err
        | some r =>
          refine (Obeys.perform trivial).bind fun ok _ => ?_
          cases ok with
          | true => exact Obeys.ret trivial
          | false => exact Obeys.err
      refine (session_entering hnew).bind fun root _ => ?_
      cases root with
      | error e => exact Obeys.ret trivial
      | ok sharedDir =>
        refine (session_entering
          (n.deserializePath_restored cfg sharedDir filename).attempt_ok).bind fun found hf => ?_
        exact n.insertFound_entering cfg h hf
  · next handle _ =>
    split
    · exact Obeys.err
    · refine (neutral_entering
        (n.deserializeFileHandle_restored cfg mountFds handle).attempt_ok).bind fun found hf => ?_
      exact n.insertFound_entering cfg h hf

end SerializedInode

/-! ## 4. The whole state -/

theorem pass_entering {attempt : β → SessionM Bool} {l₀ : List β}
    (h : ∀ x ∈ l₀, SessionEntering ids (attempt x)) :
    ∀ (k i : Nat) (any : Bool) (l : List β), l ⊆ l₀ →
      Keeps (SessionAct.RestoresIds ids) (fun _ _ => True) (Deferral.pass attempt k i any l)
        fun r => r.2 ⊆ l₀
  | 0, _, _, _, hl => Obeys.ret hl
  | k + 1, i, any, l, hl => by
    unfold Deferral.pass
    split
    · exact Obeys.ret hl
    · next x hx =>
      refine (h x (hl (List.mem_of_getElem? hx))).bind fun processed _ => ?_
      split
      · have hsub : swapRemove l i ⊆ l :=
          fun y hy => (perm_swapRemove hx).symm.subset (List.mem_cons_of_mem _ hy)
        exact pass_entering h k i true _ (List.Subset.trans hsub hl)
      · exact pass_entering h k (i + 1) any l hl

theorem loop_entering {attempt : β → SessionM Bool} {e : IoError} {l₀ : List β}
    (h : ∀ x ∈ l₀, SessionEntering ids (attempt x)) :
    ∀ (fuel : Nat) (l : List β), l ⊆ l₀ → SessionEntering ids (Deferral.loop attempt e fuel l)
  | 0, [], _ => Obeys.ret trivial
  | _ + 1, [], _ => Obeys.ret trivial
  | 0, _ :: _, _ => Obeys.err
  | fuel + 1, x :: l, hl => by
    unfold Deferral.loop
    refine (pass_entering h _ _ _ _ hl).bind fun r hr => ?_
    split
    · exact loop_entering h fuel r.2 hr
    · exact Obeys.err

theorem openMountFds_restoring (root : Fd) :
    ∀ mountPaths : List (Nat × Name), NeutralRestoring (openMountFds root mountPaths)
  | [] => Obeys.ret trivial
  | (source, path) :: rest => by
    have hmount : NeutralRestoring (newMountFd root path) := by
      refine (restoring_calls.errContext (openatStr_restoring root path _)).bind fun fd _ => ?_
      exact (restoring_calls.errContext (restoring_calls.statx fd none)).map
    refine hmount.attempt.bind fun mount _ => ?_
    refine (openMountFds_restoring root rest).bind fun mounts _ => ?_
    cases mount with
    | ok | error => exact Obeys.ret trivial

section

variable {inodes : List SerializedInode} (h : ∀ n ∈ inodes, ids n.id)

include h

theorem restoreRoot_entering (cfg : Config) (mountPaths : List (Nat × Name)) :
    Keeps (SessionAct.RestoresIds ids) (fun _ _ => True) (restoreRoot cfg mountPaths inodes)
      fun r => r.2 ⊆ inodes := by
  unfold restoreRoot
  split
  · exact Obeys.ret (List.Subset.refl _)
  · split
    · exact Obeys.err
    · split
      · exact Obeys.err
      · next i _ root hroot =>
        have hid := h root (List.mem_of_getElem? hroot)
        refine (root.deserializeRootNode_entering cfg hid).bind fun _ _ => ?_
        refine (neutral_entering (query_restoring (.get ROOT_ID) trivial)).bind fun r _ => ?_
        cases r with
        | none => exact Keeps.panic
        | some node =>
          refine (neutral_entering (restoring_calls.errContext
            (restoring_calls.getFile node.data))).bind fun file _ => ?_
          refine (neutral_entering (openMountFds_restoring file mountPaths)).bind
            fun _ _ => Obeys.ret fun y hy => ?_
          exact (perm_swapRemove hroot).symm.subset (List.mem_cons_of_mem _ hy)

theorem restoreInodes_entering (cfg : Config) (mountPaths : List (Nat × Name)) :
    SessionEntering ids (restoreInodes cfg mountPaths inodes) := by
  refine (sessionAct_entering .clear trivial).bind fun _ _ => ?_
  refine (restoreRoot_entering h cfg mountPaths).bind fun r hr => ?_
  exact loop_entering
    (fun n hn => SerializedInode.deserializeWithFs_entering cfg n (h n hn) r.1) _ _ hr

end

theorem deserializeHandle_restoring (cfg : Config) (h : SerializedHandle) :
    NeutralRestoring (h.deserializeWithFs cfg) := by
  refine (query_restoring (.get h.inode) trivial).bind fun r _ => ?_
  cases r with
  | none => exact Obeys.err
  | some inode =>
    have hopen : NeutralRestoring (h.openFile inode.data) :=
      (restoring_calls.errContext (restoring_calls.openFile inode.data
      (CallClass.opens_offGuest h.flags))).bind fun _ _ =>
        (restoring_parts cfg).allocateFd.map
    refine hopen.attempt.bind fun file _ => ?_
    split
    · exact Obeys.err
    · exact query_restoring (.insertHandle _ _) trivial

theorem restoreHandles_restoring (cfg : Config) :
    ∀ handles : List SerializedHandle, NeutralRestoring (restoreHandles cfg handles)
  | [] => Obeys.ret trivial
  | h :: rest => (deserializeHandle_restoring cfg h).bind fun _ _ =>
      restoreHandles_restoring cfg rest

/-! ## 5. What is stored -/

section

variable {cfg : Config} {w w' : World}

/-- A check that has passed. -/
theorem of_check_run {c : Prop} [Decidable c] {e : IoError} {k : β → NeutralM α}
    {k' : NeutralM α} {a : α}
    (h : (liftM (if c then (Prog.err e).bind k else k') : SessionM α).run World.performSession w =
      (.ok a, w')) :
    (liftM k' : SessionM α).run World.performSession w = (.ok a, w') := by
  split at h
  · cases h
  · exact h

/-- The world with a flag stored. -/
def World.stored (w : World) (f : FsFlag) (v : Bool) : World :=
  { w with fs := { w.fs with flags := Function.update w.fs.flags f v } }

theorem store_bind_run (f : FsFlag) (v : Bool) (k : Unit → NeutralM α) :
    (liftM (Prog.bind (query (.store f v)) k) : SessionM α).run World.performSession w =
      (liftM (k ()) : SessionM α).run World.performSession (w.stored f v) := rfl

/-- The flags of negotiated options. -/
def NegotiatedOpts.flag (o : NegotiatedOpts) : FsFlag → Bool
  | .writeback => o.writeback
  | .announceSubmounts => o.announceSubmounts
  | .posixAcl => o.posixAcl
  | .supGroupExtension => o.supGroupExtension
  | .trackMigrationInfo => false

theorem PassthroughFs.negotiatedOpts_flag {f : FsFlag} (hf : f ≠ .trackMigrationInfo) :
    fs.negotiatedOpts.flag f = fs.flags f := by
  cases f with
  | trackMigrationInfo => exact absurd rfl hf
  | _ => rfl

theorem NegotiatedOpts.of_apply_run {o : NegotiatedOpts}
    (h : (liftM (o.apply cfg) : SessionM Unit).run World.performSession w = (.ok (), w')) :
    w' = (((w.stored .writeback o.writeback).stored .announceSubmounts o.announceSubmounts).stored
      .posixAcl o.posixAcl).stored .supGroupExtension o.supGroupExtension := by
  unfold NegotiatedOpts.apply at h
  simp only [Prog.bind_eq] at h
  have h₁ := of_check_run h
  rw [store_bind_run] at h₁
  have h₂ := of_check_run h₁
  rw [store_bind_run] at h₂
  have h₃ := of_check_run h₂
  rw [store_bind_run] at h₃
  exact (congrArg Prod.snd h₃).symm

/-- **What a destination has after a state has been applied**: the flags and the counters of
the state. -/
theorem SerializedFs.of_apply_run {state : SerializedFs}
    (h : (state.apply cfg).run World.performSession w = (.ok (), w')) :
    (∀ f, f ≠ .trackMigrationInfo → w'.fs.flags f = state.negotiatedOpts.flag f) ∧
      w'.fs.nextInode = state.nextInode ∧ w'.fs.nextHandle = state.nextHandle := by
  obtain ⟨w₁, w₂, w₃, h₁, h₂, h₃, rfl⟩ := SerializedFs.apply_run_iff.mp h
  have hopts := NegotiatedOpts.of_apply_run h₁
  have hentering : SessionEntering (fun _ => True)
      (restoreInodes cfg state.mountPaths state.inodes) :=
    restoreInodes_entering (fun _ _ => trivial) cfg state.mountPaths
  have hinodes := hentering.restoring.sameCounters w₁
  rw [h₂] at hinodes
  have hhandles := (neutral_session_restoring
    (restoreHandles_restoring cfg state.handles)).sameCounters (w₂.cleared state.nextInode)
  rw [h₃] at hhandles
  refine ⟨fun f hf => ?_, hhandles.nextInode, rfl⟩
  have hflags : w₃.fs.flags = w₁.fs.flags := hhandles.flags.trans hinodes.flags
  change w₃.fs.flags f = _
  rw [hflags, hopts]
  cases f with
  | trackMigrationInfo => exact absurd rfl hf
  | _ => rfl

end

end Virtiofsd
