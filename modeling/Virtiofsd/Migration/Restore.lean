/-
  # What restoring an inode does to the store

  One lemma for each function of `Migration/Deserialize.lean` that touches the inode store.
  Together (`deserializeWithFs_run`) they say: if failures make inodes invalid, an inode that
  is not deferred ends up in the store, once one reference to its parent has been dropped;
  only the root can still fail.
-/
import Virtiofsd.Migration.Deserialize
import Virtiofsd.Passthrough.Session

namespace Virtiofsd

open Lib World Prog

variable {cfg : Config} {w : World}

/-! ## 1. What is found on the host -/

theorem openatStr_meets {ok : AllowedAnswers} {safe : LocalPanic → Prop} (dir : Fd) (path : Name)
    (flags : UInt32) : Meets ok safe (openatStr dir path flags)
      (fun fd => ok (.host (.openat dir path flags none)) (.ok fd)) := by
  unfold openatStr
  split
  · exact Obeys.err
  · refine (host_meets _).bind fun r hr => (errno_meets r).mono fun fd hfd => ?_
    obtain rfl := hfd
    exact hr

namespace SerializedInode

variable {n : SerializedInode} {d : InodeData} {p : InodeRef} {filename : Name}
  {ok : AllowedAnswers} {safe : LocalPanic → Prop}

/-- The file is one the host has by that name in some directory. -/
def FoundAs (ok : AllowedAnswers) (filename : Name) (d : InodeData) : Prop :=
  ∃ dir fd, ok (.host (.openat dir filename (O_PATH ||| O_NOFOLLOW ||| O_CLOEXEC) none)) (.ok fd) ∧
    d.fileOrHandle.IsFile ok fd

/-- The file is one the host has for the handle on one of its mounts. -/
def FoundBy (ok : AllowedAnswers) (handle : SerializableFileHandle) (d : InodeData) : Prop :=
  ∃ mntId fd, ok (.host (.openByHandle ⟨mntId, handle.handleType, handle.handle⟩ O_PATH)) (.ok fd) ∧
    (d.fileOrHandle = .file fd ∨ d.fileOrHandle = .handle ⟨mntId, handle.handleType, handle.handle⟩)

theorem openPath_meets (parent : InodeData) :
    Meets ok safe (n.openPath cfg parent filename)
      (fun d => d.inode = n.id ∧ FoundAs ok filename d) := by
  refine (getFile_meets parent).bind fun parentFd _ => ?_
  refine (errContext_meets (openatStr_meets _ _ _)).bind fun fd hfd => ?_
  refine (statx_meets fd none).bind fun st _ => ?_
  refine (getFileHandleOpt_meets cfg fd st).bind fun handle hhandle => ?_
  refine (newFileOrHandle_meets fd handle hhandle).bind fun f hf => ?_
  exact Obeys.ret ⟨rfl, parentFd, fd, hfd, hf⟩

theorem deserializeFileHandle_meets (mountFds : List (Nat × Nat))
    (handle : SerializableFileHandle) :
    Meets ok safe (n.deserializeFileHandle cfg mountFds handle)
      (fun d => d.inode = n.id ∧ FoundBy ok handle d) := by
  unfold deserializeFileHandle
  split
  · exact Obeys.err
  · rename_i mntId _
    dsimp only
    split
    · exact Obeys.err
    · refine (errContext_meets (Q := fun fd => ok (.host (.openByHandle
        ⟨mntId, handle.handleType, handle.handle⟩ O_PATH)) (.ok fd)) ?_).bind fun fd hfd => ?_
      · refine (host_meets _).bind fun r hr => (errno_meets r).mono fun fd hfd => ?_
        obtain rfl := hfd
        exact hr
      refine (errContext_meets (statx_meets fd none)).bind fun st _ => ?_
      split
      · exact allocateFd_meets.bind fun _ _ => Obeys.ret ⟨rfl, mntId, fd, hfd, .inl rfl⟩
      · exact Obeys.ret ⟨rfl, mntId, fd, hfd, .inr rfl⟩

/-- An inode that passes the check has the handle the source sent. -/
theorem checkFileHandle_meets (d : InodeData) :
    Meets ok safe (n.checkFileHandle d) (fun _ => ∀ h, n.fileHandle = some h →
      ∃ fh, d.fileOrHandle.HasHandle ok fh ∧ fh.requireEqualWithoutMountId h = .ok ()) := by
  unfold checkFileHandle
  split
  · rename_i hnone
    exact Obeys.ret fun h hh => by simp [hnone] at hh
  · rename_i refFh hsome
    refine (toSerializable_meets d.fileOrHandle).bind fun fh hfh => ?_
    split
    · rename_i heq
      refine Obeys.ret fun h hh => ?_
      obtain rfl := Option.some.inj (hsome.symm.trans hh)
      exact ⟨fh, hfh, heq⟩
    · exact Obeys.err

/-- Failures make invalid inodes. -/
theorem orInvalid_guestError (hcfg : cfg.migrationOnError = .guestError)
    (r : Except IoError InodeData) (hr : ∀ d, r = .ok d → d.inode = n.id) :
    ∃ d, n.orInvalid cfg r = .ret d ∧ d.inode = n.id := by
  cases r with
  | ok d => exact ⟨d, rfl, hr d rfl⟩
  | error e => exact ⟨_, by simp only [orInvalid, deserializeInvalidInode, hcfg]; rfl, rfl⟩

theorem dropFile_run (f : FileOrHandle) (w : World) : ∃ w', (liftM (dropFile f) : SessionM Unit).run
    performSession w = (.ok (), w') ∧ w'.fs.inodes = w.fs.inodes := by
  cases f <;> exact ⟨_, rfl, rfl⟩

theorem verified_run (hcfg : cfg.migrationOnError = .guestError) (hd : d.inode = n.id)
    (w : World) : ∃ d' w', (liftM (n.verified cfg d) : SessionM InodeData).run
      performSession w = (.ok d', w') ∧ d'.inode = n.id ∧ w'.fs.inodes = w.fs.inodes := by
  have hcheck : NoPanic (n.checkFileHandle d) (fun _ => True) :=
    (checkFileHandle_meets d).mono fun _ _ => trivial
  obtain ⟨r, w₁, hr, hs₁, -⟩ := hcheck.attempt_session w
  unfold verified
  rw [bind_eq, session_bind, run_bind, hr]
  cases r with
  | ok _ => exact ⟨d, w₁, rfl, hd, hs₁⟩
  | error e =>
    obtain ⟨w₂, hdrop, hs₂⟩ := dropFile_run d.fileOrHandle w₁
    obtain ⟨d', hret, hd'⟩ := orInvalid_guestError hcfg (.error e) (n := n) (by simp)
    dsimp only
    rw [bind_eq, session_bind, run_bind, hdrop]
    simp only [hret]
    exact ⟨d', w₂, rfl, hd', hs₂.trans hs₁⟩

/-- `new_inode` with an id that is not taken. -/
theorem insert_run (hnew : w.fs.inodes.contains d.inode = false) :
    ∃ w', (n.insert d).run performSession w = (.ok (), w') ∧
      w'.fs.inodes = (w.fs.inodes.insertNew ⟨d, n.refcount, none⟩).2 := by
  have hs : w.fs.inodes.newInode ⟨d, n.refcount, none⟩ =
      some (w.fs.inodes.insertNew ⟨d, n.refcount, none⟩).2 := newInode_of_not_contains hnew
  refine ⟨{ w with fs := w.fs.withInodes (w.fs.inodes.insertNew ⟨d, n.refcount, none⟩).2 }, ?_, rfl⟩
  unfold insert
  simp only [bind_eq, run_bind, newInode_run hs, Bool.not_true, Bool.false_eq_true,
    ↓reduceIte]
  rfl

/-- **`deserialize_path` drops one reference to the parent**, whether it finds the inode or
not. -/
theorem deserializePath_run (cfg : Config) (n : SerializedInode) (p : InodeRef) (filename : Name)
    (hw : w.Answers ok) :
    ∃ r w', (liftM (n.deserializePath cfg p filename).attempt :
        SessionM (Except IoError InodeData)).run performSession w = (.ok r, w') ∧
      w'.fs.inodes = w.fs.inodes.forgetOne p.data.inode 1 ∧
      ∀ d, r = .ok d → d.inode = n.id ∧ FoundAs ok filename d := by
  obtain ⟨r, w₁, hr, hs, hd⟩ := neutral_attempt (openPath_meets p.data) hw
  refine ⟨r, { w₁ with fs := w₁.fs.withInodes (w₁.fs.inodes.forgetOne p.data.inode 1) }, ?_, ?_, hd⟩
  · refine (fs_run _ w).trans ?_
    rw [run_attempt]
    unfold deserializePath ensuring
    rw [run_bind, hr]
    cases r <;> rfl
  · rw [← hs]
    rfl

/-- Overwriting the refcount of an inode that was just inserted. -/
theorem storeRefcount_insertNew (s : InodeStoreInner) (c : Cell) (m : Nat) :
    (s.insertNew c).2.storeRefcount (s.insertNew c).1 m =
      (s.insertNew { c with refcount := m }).2 := by
  have hderef : (s.insertNew c).2.deref (s.insertNew c).1 = some c := by
    simp [InodeStoreInner.deref, InodeStoreInner.insertNew]
  unfold InodeStoreInner.storeRefcount
  rw [hderef]
  simp [InodeStoreInner.setCell, InodeStoreInner.insertNew]

/-- **The root is in the store with the refcount of the source**, or restoring it fails. -/
theorem deserializeRootNode_run (cfg : Config) (hid : n.id = ROOT_ID)
    (hnew : w.fs.inodes.contains ROOT_ID = false) :
    (∃ d info w', (n.deserializeRootNode cfg).run performSession w = (.ok (), w') ∧
      d.inode = n.id ∧ infoTokens info = 0 ∧
      w'.fs.inodes = (w.fs.inodes.insertNew ⟨d, n.refcount, info⟩).2) ∨
    ∃ e w', (n.deserializeRootNode cfg).run performSession w = (.err e, w') := by
  unfold deserializeRootNode
  rw [if_neg (by simpa using hid)]
  split
  · exact .inr ⟨_, _, rfl⟩
  · have hopen : RootOpened w.fs.inodes
        ((PassthroughFs.openRootNode cfg).run performSession w) := openRootNode_run cfg hnew
    simp only [bind_eq, run_bind]
    generalize (PassthroughFs.openRootNode cfg).run performSession w = res at hopen
    cases hopen with
    | err => exact .inr ⟨_, _, rfl⟩
    | @ok d info w₁ hd hinfo hs =>
      -- the root is found again, and gets the refcount of the source
      have hget : w₁.fs.inodes.get ROOT_ID = some (w.fs.inodes.insertNew ⟨d, 2, info⟩).1 := by
        rw [hs, ← hd]
        exact InodeStoreInner.get_insertNew_self
      have hquery : (liftM (query (.get ROOT_ID)) : SessionM (Option InodeRef)).run
          performSession w₁ = (.ok (w₁.fs.inodes.get ROOT_ID), w₁) := rfl
      have hstore : ∀ r m, (sessionAct (.storeRefcount r m)).run performSession w₁ =
          (.ok (), { w₁ with fs := w₁.fs.withInodes (w₁.fs.inodes.storeRefcount r m) }) :=
        fun _ _ => rfl
      have hcheck : NoPanic (n.checkFileHandle d) (fun _ => True) :=
    (checkFileHandle_meets d).mono fun _ _ => trivial
      have hend := hcheck.session { w₁ with
        fs := w₁.fs.withInodes (w.fs.inodes.insertNew ⟨d, n.refcount, info⟩).2 }
      simp only [hquery, hget, run_bind, hstore]
      rw [hs, storeRefcount_insertNew]
      rcases hr : (liftM (n.checkFileHandle d) : SessionM Unit).run performSession { w₁ with
        fs := w₁.fs.withInodes (w.fs.inodes.insertNew ⟨d, n.refcount, info⟩).2 } with
        ⟨_ | e | q, w'⟩ <;> rw [hr] at hend <;> cases hend
      · rename_i hs'
        exact .inl ⟨d, info, w', hr, hd.trans hid.symm, hinfo, hs'⟩
      · exact .inr ⟨e, w', hr⟩

/-- The store in which an inode is inserted: a reference to its parent has been dropped. -/
def base (n : SerializedInode) (s : InodeStoreInner) : InodeStoreInner :=
  match n.location with
  | .path parent _ => s.forgetOne parent 1
  | _ => s

/-- What a source can send: only the root is a root node, and `fullPath` is never used. -/
def FromSource (n : SerializedInode) : Prop :=
  match n.location with
  | .rootNode => n.id = ROOT_ID
  | .path _ _ => n.id ≠ ROOT_ID
  | .invalid => True
  | .fullPath _ => False
  | .fileHandle _ => n.id ≠ ROOT_ID

/-- How an attempt to restore an inode ends, if failures make inodes invalid. -/
inductive AttemptEnd (cfg : Config) (n : SerializedInode) (w : World) :
    Outcome IoError PanicSite Bool × World → Prop where
  | deferred {parent : Inode} {filename : Name} (hl : n.location = .path parent filename)
      (hp : w.fs.inodes.get parent = none) : AttemptEnd cfg n w (.ok false, w)
  | restored {d : InodeData} {info : Option InodeMigrationInfo} {w' : World}
      (hp : ∀ p f, n.location = .path p f → ∃ r, w.fs.inodes.get p = some r)
      (hd : d.inode = n.id) (hinfo : infoTokens info = 0)
      (hs : w'.fs.inodes = ((n.base w.fs.inodes).insertNew ⟨d, n.refcount, info⟩).2) :
      AttemptEnd cfg n w (.ok true, w')
  | rootFailed {e : IoError} {w' : World} (hl : n.location = .rootNode)
      (hr : (n.deserializeRootNode cfg).run World.performSession w = (.err e, w')) :
      AttemptEnd cfg n w (.err e, w')

/-- The common end of all arms but the root's. -/
theorem insert_attempt {w₁ : World} (hw : w₁.fs.inodes = n.base w.fs.inodes)
    (hp : ∀ p f, n.location = .path p f → ∃ r, w.fs.inodes.get p = some r)
    (hd : d.inode = n.id) (hnew : (n.base w.fs.inodes).contains n.id = false) :
    AttemptEnd cfg n w (((n.insert d).bind fun _ => .ret true).run performSession w₁) := by
  obtain ⟨w', hr, hs⟩ := insert_run (n := n) (d := d) (w := w₁) (by rw [hw, hd]; exact hnew)
  rw [run_bind, hr]
  rw [hw] at hs
  exact .restored hp hd rfl hs

/-- **One attempt.** -/
theorem deserializeWithFs_run (hcfg : cfg.migrationOnError = .guestError) (hn : n.FromSource)
    (hwf : w.fs.inodes.WellFormed) (hnew : (n.base w.fs.inodes).contains n.id = false)
    (mountFds : List (Nat × Nat)) :
    AttemptEnd cfg n w ((n.deserializeWithFs cfg mountFds).run performSession w) := by
  unfold deserializeWithFs
  cases hl : n.location with
  | rootNode =>
    have hid : n.id = ROOT_ID := by simpa [FromSource, hl] using hn
    have hbase : n.base w.fs.inodes = w.fs.inodes := by simp [base, hl]
    simp only [hid, ne_eq, not_true_eq_false, ↓reduceIte, bind_eq]
    rcases deserializeRootNode_run cfg hid (by rw [← hbase, ← hid]; exact hnew) with
      ⟨d, info, w', hr, hd, hinfo, hs⟩ | ⟨e, w', hr⟩
    · rw [run_bind_of_ok _ hr]
      refine .restored (by simp [hl]) hd hinfo ?_
      rw [hbase]
      exact hs
    · rw [run_bind_of_err _ hr]
      exact .rootFailed hl hr
  | path parent filename =>
    have hid : n.id ≠ ROOT_ID := by simpa [FromSource, hl] using hn
    have hquery : (liftM (query (.get parent)) : SessionM (Option InodeRef)).run
        performSession w = (.ok (w.fs.inodes.get parent), w) := rfl
    simp only [hid, ↓reduceIte, bind_eq]
    rw [run_bind_of_ok _ hquery]
    cases hget : w.fs.inodes.get parent with
    | none => exact .deferred hl hget
    | some p =>
      have hp : p.data.inode = parent := hwf.get_inode hget
      obtain ⟨r, w₁, hr, hs₁, hd₁⟩ := deserializePath_run cfg n p filename w.answers_any
      obtain ⟨d, hret, hd⟩ := orInvalid_guestError hcfg r fun d h => (hd₁ d h).1
      obtain ⟨d', w₂, hr₂, hd', hs₂⟩ := verified_run hcfg hd w₁
      have hbase : w₂.fs.inodes = n.base w.fs.inodes := by
        rw [hs₂, hs₁, hp]
        simp [base, hl]
      rw [run_bind_of_ok _ hr, hret, run_bind_of_ok _ rfl, run_bind_of_ok _ hr₂]
      refine insert_attempt hbase (fun q f h => ?_) hd' hnew
      rw [hl] at h
      cases h
      exact ⟨p, hget⟩
  | invalid =>
    obtain ⟨d, hret, hd⟩ := orInvalid_guestError hcfg
      (.error (.custom .notFound s!"Migration source has lost inode {n.id}")) (n := n) (by simp)
    simp only [bind_eq, hret]
    rw [run_bind_of_ok _ rfl]
    exact insert_attempt (by simp [base, hl]) (by simp [hl]) hd hnew
  | fullPath filename => simp [FromSource, hl] at hn
  | fileHandle handle =>
    have hid : n.id ≠ ROOT_ID := by simpa [FromSource, hl] using hn
    have hopen : NoPanic (n.deserializeFileHandle cfg mountFds handle) (fun d => d.inode = n.id) :=
      (deserializeFileHandle_meets mountFds handle).mono fun _ h => h.1
    obtain ⟨r, w₁, hr, hs₁, hd₁⟩ := hopen.attempt_session w
    obtain ⟨d, hret, hd⟩ := orInvalid_guestError hcfg r hd₁
    simp only [hid, ↓reduceIte, bind_eq]
    rw [run_bind_of_ok _ hr, hret, run_bind_of_ok _ rfl]
    exact insert_attempt (by simp [base, hl, hs₁]) (by simp [hl]) hd hnew

end SerializedInode

end Virtiofsd
