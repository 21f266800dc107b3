/-
  # Running programs in a session

  Programs of requests and programs that touch no reference, run as part of a session
  (`World.performSession`), and the two steps that fill an empty store: `new_inode` and
  `open_root_node`.
-/
import Virtiofsd.Passthrough.Operations
import Virtiofsd.Passthrough.Safety

namespace Virtiofsd

open Lib World PassthroughFs

variable {α : Type} {Q : α → Prop} {cfg : Config} {w : World} {s : InodeStoreInner}

/-! ## 1. Programs that do not touch the store -/

/-- A program that does not panic, whatever it is answered. -/
abbrev NoPanic (p : NeutralM α) (Q : α → Prop) : Prop :=
  Meets (fun _ _ => True) (fun _ => False) p Q

theorem fs_run (p : FsM α) : ∀ w : World,
    (liftM p : SessionM α).run performSession w = p.run perform w := by
  induction p with
  | ret | err | panic => exact fun _ => rfl
  | act a k ih => exact fun w => ih _ _

theorem neutral_perform_inodes (p : NeutralM α) : ∀ w : World,
    ((liftM p : FsM α).run perform w).2.fs.inodes = w.fs.inodes := by
  induction p with
  | ret | err | panic => exact fun _ => rfl
  | act a k ih =>
    intro w
    cases a with
    | host c => exact ih _ _
    | query q => exact (ih _ _).trans (answer_inodes q w.fs)

theorem neutral_session_inodes (p : NeutralM α) (w : World) :
    ((liftM p : SessionM α).run performSession w).2.fs.inodes = w.fs.inodes := by
  have h := neutral_perform_inodes p w
  rw [← fs_run] at h
  exact h

theorem session_bind {β : Type} (p : NeutralM α) (k : α → NeutralM β) :
    (liftM (p.bind k) : SessionM β) = (liftM p : SessionM α).bind fun a => liftM (k a) := by
  show Prog.mapAct _ _ _ (Prog.mapAct _ _ _ (p.bind k)) = _
  rw [Prog.mapAct_bind, Prog.mapAct_bind]
  rfl

theorem session_oracle (p : SessionM α) (w : World) :
    (p.run performSession w).2.oracle = w.oracle := by
  refine Prog.run_preserves performSession (I := fun w' : World => w'.oracle = w.oracle)
    (fun a w' hw => ?_) p rfl
  rw [← hw]
  cases a with
  | act a => rcases a with (c | q) | r <;> rfl
  | clear | storeRefcount => rfl
  | newInode c =>
    simp only [performSession]
    split <;> rfl

/-- The host answers as `ok` allows, and `ok` allows every answer of the shared state. -/
structure World.Answers (ok : AllowedAnswers) (w : World) : Prop where
  host : ∀ k c, ok (.host c) (w.oracle k c)
  query : ∀ q r, ok (.query q) r

variable {ok : AllowedAnswers} {p : NeutralM α}

/-- Running a program on a host that answers as `ok` allows. -/
theorem meets_perform {safe : LocalPanic → Prop} (hp : Meets ok safe p Q) (hw : w.Answers ok) :
    MeetsEnd (fun q => ∃ site, q = .here site ∧ safe site) Q
      ((liftM p : FsM α).run perform w).1 () := by
  have hfs : Meets (fun a r => match a, r with
      | .neutral a, r => ok a r
      | .ref _, _ => True) (fun q => ∃ site, q = .here site ∧ safe site) (liftM p : FsM α) Q :=
    hp.mapAct (fun _ _ => trivial) (fun _ _ h => h) fun site h => ⟨site, rfl, h⟩
  refine (hfs.run (h := perform) (I := Answers ok) (fun a w' _ hw' => ?_) hw).1
  rcases a with (c | q) | r
  · exact ⟨hw'.host _ c, hw'.host, hw'.query⟩
  · exact ⟨hw'.query q _, hw'.host, hw'.query⟩
  · exact ⟨trivial, hw'.host, hw'.query⟩

/-- What a program has found that has returned, as part of a session. -/
theorem of_session_run {a : α} {w' : World} (hp : Meets ok (fun _ => True) p Q)
    (hw : w.Answers ok) (hr : (liftM p : SessionM α).run performSession w = (.ok a, w')) :
    Q a ∧ w'.fs.inodes = w.fs.inodes := by
  have hs := neutral_session_inodes p w
  have hend := meets_perform hp hw
  rw [← fs_run] at hend
  rw [hr] at hs
  rw [show (liftM (liftM p : FsM α) : SessionM α).run performSession w = (.ok a, w') from hr]
    at hend
  exact ⟨hend, hs⟩

/-- How a program ends that neither panics nor touches the store. -/
inductive NeutralEnd (Q : α → Prop) (w : World) : Outcome IoError PanicSite α × World → Prop where
  | ok {a : α} {w' : World} (ha : Q a) (hs : w'.fs.inodes = w.fs.inodes) :
      NeutralEnd Q w (.ok a, w')
  | err {e : IoError} {w' : World} (hs : w'.fs.inodes = w.fs.inodes) : NeutralEnd Q w (.err e, w')

theorem neutral_end (hp : Meets ok (fun _ => False) p Q) (hw : w.Answers ok) :
    NeutralEnd Q w ((liftM p : FsM α).run perform w) := by
  have hs := neutral_perform_inodes p w
  have hend := meets_perform hp hw
  rcases hr : (liftM p : FsM α).run perform w with ⟨a | e | q, w'⟩ <;> rw [hr] at hs hend
  · exact .ok hend hs
  · exact .err hs
  · obtain ⟨_, _, hfalse⟩ := hend
    exact hfalse.elim

/-- Its result as a value. -/
theorem neutral_attempt (hp : Meets ok (fun _ => False) p Q) (hw : w.Answers ok) :
    ∃ r w', (liftM p : FsM α).attempt.run perform w = (.ok r, w') ∧
      w'.fs.inodes = w.fs.inodes ∧ ∀ a, r = .ok a → Q a := by
  have h := neutral_end hp hw
  rw [Prog.run_attempt]
  generalize (liftM p : FsM α).run perform w = res at h
  cases h with
  | ok ha hs => exact ⟨_, _, rfl, hs, fun a h => by cases h; exact ha⟩
  | err hs => exact ⟨_, _, rfl, hs, fun a h => by cases h⟩

theorem World.answers_any (w : World) : w.Answers (fun _ _ => True) :=
  ⟨fun _ _ => trivial, fun _ _ => trivial⟩

theorem NoPanic.session (hp : NoPanic p Q) (w : World) :
    NeutralEnd Q w ((liftM p : SessionM α).run performSession w) := by
  have h := neutral_end hp w.answers_any
  rw [← fs_run] at h
  exact h

theorem NoPanic.attempt_session (hp : NoPanic p Q) (w : World) :
    ∃ r w', (liftM p.attempt : SessionM (Except IoError α)).run performSession w =
      (.ok r, w') ∧ w'.fs.inodes = w.fs.inodes ∧ ∀ a, r = .ok a → Q a := by
  obtain ⟨r, w', hr, h⟩ := neutral_attempt hp w.answers_any
  refine ⟨r, w', ?_, h⟩
  have hlift : (liftM p.attempt : FsM (Except IoError α)) = (liftM p : FsM α).attempt :=
    Prog.mapAct_attempt p
  rw [← hr, ← hlift]
  exact fs_run _ w

/-! ## 2. Filling the store -/

theorem newInode_of_not_contains {c : Cell} (h : s.contains c.data.inode = false) :
    s.newInode c = some (s.insertNew c).2 := by
  simp [InodeStoreInner.newInode, h]

theorem newInode_run {c : Cell} {s : InodeStoreInner} (hs : w.fs.inodes.newInode c = some s) :
    (sessionAct (.newInode c)).run performSession w =
      (.ok true, { w with fs := w.fs.withInodes s }) := by
  simp only [sessionAct, Prog.perform, Prog.run_act, performSession, hs, Prog.run_ret]

/-- What `new_inode` has done that has not failed. -/
theorem of_newInode_run {c : Cell} {f : FileOrHandle} {e : IoError} {w' : World}
    (hr : ((sessionAct (.newInode c)).bind fun inserted : Bool =>
      if !inserted then (liftM (dropFile f) : SessionM Unit).bind fun _ => .err e
      else .ret ()).run performSession w = (.ok (), w')) :
    ∃ s, w.fs.inodes.newInode c = some s ∧ w' = { w with fs := w.fs.withInodes s } := by
  cases hnew : w.fs.inodes.newInode c with
  | none =>
    have hact : (sessionAct (.newInode c)).run performSession w = (.ok false, w) := by
      simp only [sessionAct, Prog.perform, Prog.run_act, performSession, hnew, Prog.run_ret]
    rw [Prog.run_bind_of_ok _ hact] at hr
    obtain ⟨_, _, _, hr⟩ := Prog.of_run_bind _ hr
    cases hr
  | some s =>
    rw [Prog.run_bind_of_ok _ (newInode_run hnew)] at hr
    cases hr
    exact ⟨s, rfl, rfl⟩

theorem openRoot_meets {safe : LocalPanic → Prop} :
    Meets ok safe (openRoot cfg) (fun r => ∃ fd, r.1.IsFile ok fd) := by
  refine (host_meets _).bind fun r _ => ?_
  refine (errno_meets r).bind fun fd _ => ?_
  refine (statx_meets fd none).bind fun st _ => ?_
  refine (getFileHandleOpt_meets cfg fd st).bind fun handle hhandle => ?_
  refine (newFileOrHandle_meets fd handle hhandle).bind fun f hf => ?_
  exact (verifyHandle_meets cfg f).attempt.bind fun _ _ => Obeys.ret ⟨fd, hf⟩

/-- How `open_root_node` ends in a store without a root. -/
inductive RootOpened (s : InodeStoreInner) : Outcome IoError PanicSite Unit × World → Prop where
  | ok {d : InodeData} {info : Option InodeMigrationInfo} {w' : World} (hd : d.inode = ROOT_ID)
      (hinfo : infoTokens info = 0) (hs : w'.fs.inodes = (s.insertNew ⟨d, 2, info⟩).2) :
      RootOpened s (.ok (), w')
  | err {e : IoError} {w' : World} : RootOpened s (.err e, w')

theorem openRootNode_run (cfg : Config) (hnew : w.fs.inodes.contains ROOT_ID = false) :
    RootOpened w.fs.inodes ((openRootNode cfg).run performSession w) := by
  have hopen : NoPanic (openRoot cfg) (fun _ => True) :=
    openRoot_meets.mono fun _ _ => trivial
  have hend := hopen.session w
  unfold openRootNode
  simp only [Prog.bind_eq, Prog.run_bind]
  generalize (liftM (openRoot cfg) : SessionM (FileOrHandle × StatExt ×
    Except IoError (Option SerializableFileHandle))).run performSession w = res at hend
  cases hend with
  | err _ => exact .err
  | @ok found w₁ _ hs =>
    obtain ⟨f, st, fileHandle⟩ := found
    have hinsert : w₁.fs.inodes.newInode ⟨⟨ROOT_ID, f, st.ids, st.st.mode⟩, 2,
        rootInfo fileHandle⟩ = some (w₁.fs.inodes.insertNew
          ⟨⟨ROOT_ID, f, st.ids, st.st.mode⟩, 2, rootInfo fileHandle⟩).2 :=
      newInode_of_not_contains (by rw [hs]; exact hnew)
    have hinfo : infoTokens (rootInfo fileHandle) = 0 := by
      cases fileHandle <;> rfl
    simp only [newInode_run hinsert, Bool.not_true, Bool.false_eq_true, ↓reduceIte,
      Prog.pure_eq, Prog.run_ret]
    exact .ok rfl hinfo (by rw [hs]; rfl)

/-- What `open_root_node` has done that has not failed. -/
theorem of_openRootNode_run {w' : World} (hw : w.Answers ok)
    (hr : (openRootNode cfg).run performSession w = (.ok (), w')) :
    ∃ d info fd, d.inode = ROOT_ID ∧ d.fileOrHandle.IsFile ok fd ∧
      w.fs.inodes.newInode ⟨d, 2, info⟩ = some w'.fs.inodes := by
  unfold openRootNode at hr
  simp only [Prog.bind_eq] at hr
  obtain ⟨⟨f, st, fileHandle⟩, w₁, hopen, hr⟩ := Prog.of_run_bind _ hr
  obtain ⟨⟨fd, hf⟩, hs₁⟩ := of_session_run openRoot_meets hw hopen
  obtain ⟨s, hnew, rfl⟩ := of_newInode_run hr
  rw [hs₁] at hnew
  exact ⟨_, _, fd, rfl, hf, hnew⟩

end Virtiofsd
