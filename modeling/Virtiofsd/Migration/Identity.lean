/-
  # The identity of migrated inodes

  A source can send a file handle along with an inode, for the destination to compare with
  that of the inode it has found.  `check_file_handle` does so for the root and for inodes
  found by a path below their parent.  It is NOT called for an inode that is found by a full
  path or by a file handle: such an inode is accepted whatever the reference says
  (`unverified_inodes_accepted`).

  An `InodeData` stays among the cells of the store when its inode is removed.  So the cells
  are all the inodes that were ever accepted since the store was cleared, and what is proved
  here is about all of them.
-/
import Virtiofsd.Migration.Restore
import Virtiofsd.Passthrough.Ledger

namespace Virtiofsd

open Lib Prog InodeStoreInner World

/-! ## 1. Handles -/

/-- **Equal up to the mount id.** -/
def SerializableFileHandle.SameFile (h other : SerializableFileHandle) : Prop :=
  h.handleType = other.handleType ∧ h.handle = other.handle

variable {h other : SerializableFileHandle}

theorem SerializableFileHandle.requireEqualWithoutMountId_eq_ok :
    h.requireEqualWithoutMountId other = .ok () ↔ h.SameFile other := by
  unfold requireEqualWithoutMountId SameFile
  by_cases ht : h.handleType = other.handleType <;> by_cases hh : h.handle = other.handle <;>
    simp [ht, hh]

theorem SerializableFileHandle.SameFile.symm (hs : h.SameFile other) : other.SameFile h :=
  ⟨hs.1.symm, hs.2.symm⟩

theorem SerializableFileHandle.SameFile.trans {h₁ h₂ h₃ : SerializableFileHandle}
    (h : h₁.SameFile h₂) (h' : h₂.SameFile h₃) : h₁.SameFile h₃ :=
  ⟨h.1.trans h'.1, h.2.trans h'.2⟩

/-- **File handles as the kernel makes them**: `handleOf` is the handle of an open file,
`name_to_handle_at` returns it, and `open_by_handle_at` opens the file that has it. -/
structure KernelHandles (oracle : Nat → Host) (handleOf : Fd → SerializableFileHandle) :
    Prop where
  named : ∀ k fd fh, oracle k (.nameToHandle fd none) = .ok fh →
    fh.toSerializable.SameFile (handleOf fd)
  opened : ∀ k fh flags fd, oracle k (.openByHandle fh flags) = .ok fd →
    (handleOf fd).SameFile fh.toSerializable

/-- An inode's own file handle; an invalid one has none. -/
def ownHandle (handleOf : Fd → SerializableFileHandle) :
    FileOrHandle → Option SerializableFileHandle
  | .handle h => some h.toSerializable
  | .file fd => some (handleOf fd)
  | .invalid _ => none

/-- **Invalid, or the inode the source has sent the handle of.** -/
def Verified (handleOf : Fd → SerializableFileHandle) (n : SerializedInode) (d : InodeData) :
    Prop :=
  ∀ h, n.fileHandle = some h → ∀ own, ownHandle handleOf d.fileOrHandle = some own → own.SameFile h

/-- What a host answers, at any time. -/
def hostAnswers (oracle : Nat → Host) : AllowedAnswers
  | .host c, r => ∃ k, oracle k c = r
  | .query _, _ => True

theorem World.answers_oracle (w : World) : w.Answers (hostAnswers w.oracle) :=
  ⟨fun k _ => ⟨k, rfl⟩, fun _ _ => trivial⟩

section

variable {oracle : Nat → Host} {handleOf : Fd → SerializableFileHandle}
  {f : FileOrHandle} {fh own : SerializableFileHandle} {fd : Fd}

theorem KernelHandles.of_hasHandle (hk : KernelHandles oracle handleOf)
    (h : f.HasHandle (hostAnswers oracle) fh) (hown : ownHandle handleOf f = some own) :
    own.SameFile fh := by
  cases f with
  | handle h' =>
    cases hown
    obtain rfl : fh = h'.toSerializable := h
    exact ⟨rfl, rfl⟩
  | file fd =>
    cases hown
    obtain ⟨h', ⟨k, hk'⟩, rfl⟩ := h
    exact (hk.named k fd h' hk').symm
  | invalid e => cases hown

theorem KernelHandles.of_isFile (hk : KernelHandles oracle handleOf)
    (h : f.IsFile (hostAnswers oracle) fd) (hown : ownHandle handleOf f = some own) :
    own.SameFile (handleOf fd) := by
  cases f with
  | handle h' =>
    cases hown
    obtain ⟨k, hk'⟩ := h
    exact hk.named k fd h' hk'
  | file fd' =>
    cases hown
    obtain rfl : fd' = fd := h
    exact ⟨rfl, rfl⟩
  | invalid e => cases hown

theorem KernelHandles.of_foundBy (hk : KernelHandles oracle handleOf) {d : InodeData}
    (h : SerializedInode.FoundBy (hostAnswers oracle) fh d)
    (hown : ownHandle handleOf d.fileOrHandle = some own) : own.SameFile fh := by
  obtain ⟨mntId, fd, ⟨k, hk'⟩, hd | hd⟩ := h <;> rw [hd] at hown <;> cases hown
  · exact hk.opened k _ _ fd hk'
  · exact ⟨rfl, rfl⟩

end

/-! ## 2. The inodes that were accepted -/

namespace InodeStoreInner

variable {s s' : InodeStoreInner}

/-- All inodes since the store was cleared. -/
def accepted (s : InodeStoreInner) : List InodeData := s.cells.map Cell.data

theorem Kept.accepted (h : Kept s s') : s'.accepted = s.accepted := by
  refine List.ext_getElem? fun a => ?_
  unfold InodeStoreInner.accepted
  rw [List.getElem?_map, List.getElem?_map]
  cases hc : s.cells[a]? with
  | some c =>
    obtain ⟨d, hd, hdc⟩ := h.cell a c hc
    simp [hd, hdc]
  | none =>
    have hlen := List.getElem?_eq_none_iff.mp hc
    rw [← h.length] at hlen
    rw [List.getElem?_eq_none_iff.mpr hlen]

theorem accepted_newInode {c : Cell} (h : s.newInode c = some s') :
    s'.accepted = s.accepted ++ [c.data] := by
  unfold newInode at h
  split at h
  · cases h
  · cases h
    simp [InodeStoreInner.accepted, insertNew]

theorem accepted_storeRefcount (s : InodeStoreInner) (r : InodeRef) (n : Nat) :
    (s.storeRefcount r n).accepted = s.accepted := by
  unfold storeRefcount
  cases hd : s.deref r with
  | none => rfl
  | some c =>
    exact Kept.accepted
      (Kept.setCell (d := { c with refcount := n }) (deref_eq_some hd).1 rfl (.inr rfl))

end InodeStoreInner

/-- What restoring an inode has put into the store. -/
def Accepts (w w' : World) (d : InodeData) : Prop :=
  w'.fs.inodes.accepted = w.fs.inodes.accepted ++ [d]

/-- How an inode was found, for each form of its location. -/
structure Restored (cfg : Config) (oracle : Nat → Host)
    (handleOf : Fd → SerializableFileHandle) (n : SerializedInode) (d : InodeData) : Prop where
  inode : d.inode = n.id
  valid : cfg.migrationOnError = .abort → ∃ own, ownHandle handleOf d.fileOrHandle = some own
  /-- Where the handle is checked. -/
  checked : n.location = .rootNode ∨ (∃ p f, n.location = .path p f) → Verified handleOf n d
  lost : n.location = .invalid → ∃ e, d.fileOrHandle = .invalid e
  byHandle : ∀ fh, n.location = .fileHandle fh →
    ∀ own, ownHandle handleOf d.fileOrHandle = some own → own.SameFile fh
  byPath : ∀ f, n.location = .fullPath f → ∀ own, ownHandle handleOf d.fileOrHandle = some own →
    ∃ k dir fd, oracle k (.openat dir f (O_PATH ||| O_NOFOLLOW ||| O_CLOEXEC) none) = .ok fd ∧
      own.SameFile (handleOf fd)

namespace SerializedInode

variable {cfg : Config} {w w' : World} {n : SerializedInode} {d : InodeData}
  {handleOf : Fd → SerializableFileHandle}

theorem of_insert_run (h : (n.insert d).run performSession w = (.ok (), w')) :
    Accepts w w' d := by
  obtain ⟨s, hnew, rfl⟩ := of_newInode_run h
  exact InodeStoreInner.accepted_newInode hnew

/-- An inode that was given up. -/
def Invalidated (cfg : Config) (n : SerializedInode) (d : InodeData) : Prop :=
  cfg.migrationOnError = .guestError ∧ d.inode = n.id ∧ ∃ e, d.fileOrHandle = .invalid e

theorem Invalidated.restored {oracle : Nat → Host} (h : Invalidated cfg n d) :
    Restored cfg oracle handleOf n d := by
  obtain ⟨hcfg, hid, e, he⟩ := h
  refine ⟨hid, by simp [hcfg], ?_, fun _ => ⟨e, he⟩, ?_, ?_⟩
  all_goals simp [Verified, he, ownHandle]

variable {ok : AllowedAnswers} {safe : LocalPanic → Prop}

theorem orInvalid_meets (r : Except IoError InodeData) :
    Meets ok safe (n.orInvalid cfg r) (fun d => r = .ok d ∨ Invalidated cfg n d) := by
  cases r with
  | ok d => exact Obeys.ret (.inl rfl)
  | error e =>
    unfold orInvalid deserializeInvalidInode
    cases hcfg : cfg.migrationOnError with
    | abort => exact Obeys.err
    | guestError => exact Obeys.ret (.inr ⟨hcfg, rfl, e, rfl⟩)

theorem verified_meets (d : InodeData) : Meets ok safe (n.verified cfg d) (fun d' =>
    (d' = d ∧ ∀ h, n.fileHandle = some h → ∃ fh, d.fileOrHandle.HasHandle ok fh ∧
      fh.requireEqualWithoutMountId h = .ok ()) ∨ Invalidated cfg n d') := by
  refine (checkFileHandle_meets d).attempt_bind (fun _ h => Obeys.ret (.inl ⟨rfl, h⟩)) fun e => ?_
  refine (dropFile_meets d.fileOrHandle).bind fun _ _ => ?_
  exact (orInvalid_meets (.error e)).mono fun d' h => .inr (h.resolve_left (by simp))

/-- An inode whose handle was compared. -/
theorem verified_of_hasHandle (hk : KernelHandles w.oracle handleOf)
    (h : ∀ h, n.fileHandle = some h → ∃ fh, d.fileOrHandle.HasHandle (hostAnswers w.oracle) fh ∧
      fh.requireEqualWithoutMountId h = .ok ()) : Verified handleOf n d := by
  intro ref href own hown
  obtain ⟨fh, hfh, heq⟩ := h ref href
  exact (hk.of_hasHandle hfh hown).trans
    (SerializableFileHandle.requireEqualWithoutMountId_eq_ok.mp heq)

theorem valid_of_isFile {fd : Fd} (h : d.fileOrHandle.IsFile ok fd) :
    ∃ own, ownHandle handleOf d.fileOrHandle = some own := by
  cases hf : d.fileOrHandle with
  | handle | file => exact ⟨_, rfl⟩
  | invalid e => rw [hf] at h; exact h.elim

theorem oracle_of_run {α : Type} {p : SessionM α} {o : Outcome IoError PanicSite α} {w₁ : World}
    (hr : p.run performSession w = (o, w₁)) : w₁.oracle = w.oracle := by
  have h := session_oracle p w
  rwa [hr] at h

theorem answers_of_run {α : Type} {p : SessionM α} {o : Outcome IoError PanicSite α} {w₁ : World}
    (hr : p.run performSession w = (o, w₁)) : w₁.Answers (hostAnswers w.oracle) := by
  rw [← oracle_of_run hr]
  exact w₁.answers_oracle

/-- **The root is checked.** -/
theorem deserializeRootNode_accepts (hk : KernelHandles w.oracle handleOf)
    (hr : (n.deserializeRootNode cfg).run performSession w = (.ok (), w')) :
    ∃ d, Accepts w w' d ∧ Restored cfg w.oracle handleOf n d := by
  unfold deserializeRootNode at hr
  split at hr
  · cases hr
  rename_i hid
  split at hr
  · cases hr
  rename_i hl
  have hid : n.id = ROOT_ID := by simpa using hid
  have hl : n.location = .rootNode := by simpa using hl
  simp only [bind_eq] at hr
  obtain ⟨_, w₁, hopen, hr⟩ := of_run_bind _ hr
  obtain ⟨d, info, fd, hd, hf, hnew⟩ := of_openRootNode_run w.answers_oracle hopen
  -- the root is found again
  have hget : w₁.fs.inodes.get ROOT_ID = some (w.fs.inodes.insertNew ⟨d, 2, info⟩).1 := by
    unfold newInode at hnew
    split at hnew
    · cases hnew
    · rw [← Option.some.inj hnew, ← hd]
      exact get_insertNew_self
  have hquery : (liftM (query (.get ROOT_ID)) : SessionM (Option InodeRef)).run
      performSession w₁ = (.ok (w₁.fs.inodes.get ROOT_ID), w₁) := rfl
  rw [run_bind_of_ok _ hquery, hget] at hr
  obtain ⟨_, w₂, hstore, hr⟩ := of_run_bind _ hr
  cases hstore
  have hw : ∀ fs, Answers (hostAnswers w.oracle) { w₁ with fs := fs } :=
    fun _ => ⟨(answers_of_run hopen).host, (answers_of_run hopen).query⟩
  have hr : (liftM (n.checkFileHandle d) : SessionM Unit).run performSession { w₁ with
    fs := w₁.fs.withInodes (w₁.fs.inodes.storeRefcount _ n.refcount) } = (.ok (), w') := hr
  obtain ⟨hcheck, hs⟩ := of_session_run (checkFileHandle_meets d) (hw _) hr
  refine ⟨d, ?_, hd.trans hid.symm, fun _ => valid_of_isFile hf, fun _ => ?_, ?_, ?_, ?_⟩
  · unfold Accepts
    rw [hs]
    exact (InodeStoreInner.accepted_storeRefcount _ _ _).trans
      (InodeStoreInner.accepted_newInode hnew)
  · exact verified_of_hasHandle hk hcheck
  all_goals simp [hl]

/-- The common end of the arms: what was found, or an invalid inode, is inserted. -/
theorem accepts_of_insert {w₁ w₂ : World} {b : Bool}
    (hw : w₁.fs.inodes.accepted = w.fs.inodes.accepted)
    (hr : ((n.insert d).bind fun _ => .ret true).run performSession w₁ = (.ok b, w₂)) :
    Accepts w w₂ d := by
  obtain ⟨_, w₃, hinsert, hr⟩ := of_run_bind _ hr
  cases hr
  have h := of_insert_run hinsert
  unfold Accepts at h ⊢
  rw [h, hw]

/-- What was opened below a directory, or an invalid inode. -/
theorem of_deserializePath_run {p : InodeRef} {filename : Name} {r : Except IoError InodeData}
    {w₁ w₂ : World}
    (hr : (liftM (n.deserializePath cfg p filename).attempt : SessionM _).run performSession
      w = (.ok r, w₁))
    (hr₂ : (liftM (n.orInvalid cfg r) : SessionM InodeData).run performSession w₁ =
      (.ok d, w₂)) :
    (w₂.fs.inodes.accepted = w.fs.inodes.accepted ∧ w₂.oracle = w.oracle) ∧
      (d.inode = n.id ∧ FoundAs (hostAnswers w.oracle) filename d ∨ Invalidated cfg n d) := by
  obtain ⟨r', w₁', hr', hs₁, hfound⟩ := deserializePath_run cfg n p filename w.answers_oracle
  rw [hr] at hr'
  cases hr'
  obtain ⟨hd, hs₂⟩ := of_session_run (orInvalid_meets r) (answers_of_run hr) hr₂
  refine ⟨⟨?_, (oracle_of_run hr₂).trans (oracle_of_run hr)⟩, ?_⟩
  · rw [hs₂, hs₁]
    exact (InodeStoreInner.Edits.refl.forgetOne _ _).kept.accepted
  · rcases hd with hd | hd
    · exact .inl (hfound d hd)
    · exact .inr hd

/-- Taking a strong reference accepts nothing; if it fails, nothing has happened. -/
theorem of_strongReference_run {i : Inode} {r : Except IoError InodeRef} {w₁ : World}
    (hr : (liftM (StrongInodeReference.new i).attempt : SessionM _).run performSession w =
      (.ok r, w₁)) :
    w₁.fs.inodes.accepted = w.fs.inodes.accepted ∧ ∀ e, r = .error e → w₁ = w := by
  have hr : (StrongInodeReference.new i).attempt.run perform w = (.ok r, w₁) :=
    (fs_run _ w).symm.trans hr
  have hquery : (liftM (query (.get i)) : FsM (Option InodeRef)).run perform w =
      (.ok (w.fs.inodes.get i), w) := rfl
  rw [run_attempt] at hr
  unfold StrongInodeReference.new at hr
  rw [bind_eq, run_bind_of_ok _ hquery] at hr
  cases hget : w.fs.inodes.get i with
  | none =>
    rw [hget] at hr
    cases hr
    exact ⟨rfl, fun _ _ => rfl⟩
  | some p =>
    rw [hget] at hr
    have hact : (refAct (.increment p)).run perform w =
        (.ok (w.fs.inodes.incrementRefcount p).1, { w with
          fs := w.fs.withInodes (w.fs.inodes.incrementRefcount p).2 }) := rfl
    simp only [StrongInodeReference.newWithData, bind_eq] at hr
    rw [run_bind_of_ok _ hact] at hr
    cases hinc : (w.fs.inodes.incrementRefcount p).1 with
    | true =>
      rw [hinc] at hr
      cases hr
      exact ⟨(InodeStoreInner.Edits.incrementRefcount p).kept.accepted, fun e h => by cases h⟩
    | false =>
      rw [hinc] at hr
      cases hr
      have hsame : (w.fs.inodes.incrementRefcount p).2 = w.fs.inodes :=
        incrementRefcount_false (Prod.ext hinc rfl)
      have hworld : { w with fs := w.fs.withInodes (w.fs.inodes.incrementRefcount p).2 } = w := by
        simp [hsame]
      exact ⟨by rw [hworld], fun _ _ => hworld⟩

section

variable (hk : KernelHandles w.oracle handleOf)

include hk

theorem restored_of_foundAs {filename : Name} (hl : n.location = .fullPath filename)
    (hid : d.inode = n.id) (h : FoundAs (hostAnswers w.oracle) filename d) :
    Restored cfg w.oracle handleOf n d := by
  obtain ⟨dir, fd, ⟨k, hfd⟩, hf⟩ := h
  refine ⟨hid, fun _ => valid_of_isFile hf, by simp [hl], by simp [hl], by simp [hl],
    fun f hlf own hown => ?_⟩
  rw [hl] at hlf
  cases hlf
  exact ⟨k, dir, fd, hfd, hk.of_isFile hf hown⟩

theorem restored_of_foundBy {handle : SerializableFileHandle}
    (hl : n.location = .fileHandle handle) (hid : d.inode = n.id)
    (h : FoundBy (hostAnswers w.oracle) handle d) : Restored cfg w.oracle handleOf n d := by
  refine ⟨hid, fun _ => ?_, by simp [hl], by simp [hl], fun fh hlf own hown => ?_, by simp [hl]⟩
  · obtain ⟨_, _, _, hd | hd⟩ := h <;> rw [hd] <;> exact ⟨_, rfl⟩
  · rw [hl] at hlf
    cases hlf
    exact hk.of_foundBy h hown

theorem restored_of_verified {p : Inode} {f filename : Name} (hl : n.location = .path p f)
    (hid : d.inode = n.id) (h : FoundAs (hostAnswers w.oracle) filename d)
    (hcheck : ∀ h, n.fileHandle = some h → ∃ fh,
      d.fileOrHandle.HasHandle (hostAnswers w.oracle) fh ∧
        fh.requireEqualWithoutMountId h = .ok ()) :
    Restored cfg w.oracle handleOf n d := by
  obtain ⟨dir, fd, -, hf⟩ := h
  exact ⟨hid, fun _ => valid_of_isFile hf, fun _ => verified_of_hasHandle hk hcheck,
    by simp [hl], by simp [hl], by simp [hl]⟩

/-- **One attempt accepts one inode**, found as its location says. -/
theorem deserializeWithFs_accepts {mountFds : List (Nat × Nat)}
    (hr : (n.deserializeWithFs cfg mountFds).run performSession w = (.ok true, w')) :
    ∃ d, Accepts w w' d ∧ Restored cfg w.oracle handleOf n d := by
  unfold deserializeWithFs at hr
  cases hl : n.location with
  | rootNode =>
    simp only [hl, bind_eq] at hr
    split at hr
    · cases hr
    · obtain ⟨_, _, hroot, hr⟩ := of_run_bind _ hr
      cases hr
      exact deserializeRootNode_accepts hk hroot
  | path parent filename =>
    simp only [hl, bind_eq] at hr
    split at hr
    · cases hr
    · obtain ⟨p, w₁, hquery, hr⟩ := of_run_bind _ hr
      cases hquery
      split at hr
      · cases hr
      · rename_i p _
        obtain ⟨r, w₂, hpath, hr⟩ := of_run_bind _ hr
        obtain ⟨d, w₃, hor, hr⟩ := of_run_bind _ hr
        obtain ⟨d', w₄, hver, hr⟩ := of_run_bind _ hr
        have hpath : (liftM (n.deserializePath cfg p filename).attempt : SessionM _).run
          performSession w = (.ok r, w₂) := hpath
        obtain ⟨⟨hs₃, ho₃⟩, hd⟩ := of_deserializePath_run hpath hor
        have hw₃ : w₃.Answers (hostAnswers w.oracle) := by
          rw [← ho₃]
          exact w₃.answers_oracle
        obtain ⟨hd', hs₄⟩ := of_session_run (verified_meets d) hw₃ hver
        refine ⟨d', accepts_of_insert (by rw [hs₄, hs₃]) hr, ?_⟩
        rcases hd' with ⟨rfl, hcheck⟩ | hinv
        · rcases hd with ⟨hid, hfound⟩ | hinv
          · exact restored_of_verified hk hl hid hfound hcheck
          · exact hinv.restored
        · exact hinv.restored
  | invalid =>
    simp only [hl, bind_eq] at hr
    obtain ⟨d, w₁, hor, hr⟩ := of_run_bind _ hr
    obtain ⟨hd, hs⟩ := of_session_run (orInvalid_meets _) w.answers_oracle hor
    exact ⟨d, accepts_of_insert (by rw [hs]) hr, (hd.resolve_left (by simp)).restored⟩
  | fullPath filename =>
    simp only [hl, bind_eq] at hr
    split at hr
    · cases hr
    · obtain ⟨root, w₁, hroot, hr⟩ := of_run_bind _ hr
      obtain ⟨hs₁, -⟩ := of_strongReference_run hroot
      have ho₁ := oracle_of_run hroot
      split at hr
      · cases hr
      · rename_i sharedDir
        obtain ⟨r, w₂, hpath, hr⟩ := of_run_bind _ hr
        obtain ⟨d, w₃, hor, hr⟩ := of_run_bind _ hr
        obtain ⟨⟨hs₃, ho₃⟩, hd⟩ := of_deserializePath_run hpath hor
        refine ⟨d, accepts_of_insert (by rw [hs₃, hs₁]) hr, ?_⟩
        rw [ho₁] at hd
        rcases hd with ⟨hid, hfound⟩ | hinv
        · exact restored_of_foundAs hk hl hid hfound
        · exact hinv.restored
  | fileHandle handle =>
    simp only [hl, bind_eq] at hr
    split at hr
    · cases hr
    · obtain ⟨r, w₁, hopen, hr⟩ := of_run_bind _ hr
      obtain ⟨d, w₂, hor, hr⟩ := of_run_bind _ hr
      obtain ⟨hd₁, hs₁⟩ := of_session_run (deserializeFileHandle_meets mountFds handle).attempt_ok
        w.answers_oracle hopen
      obtain ⟨hd₂, hs₂⟩ := of_session_run (orInvalid_meets r) (answers_of_run hopen) hor
      refine ⟨d, accepts_of_insert (by rw [hs₂, hs₁]) hr, ?_⟩
      rcases hd₂ with hd | hinv
      · obtain ⟨hid, hfound⟩ := hd₁ d hd
        exact restored_of_foundBy hk hl hid hfound
      · exact hinv.restored

end

/-- An attempt that is put off has done nothing. -/
theorem deserializeWithFs_defers {mountFds : List (Nat × Nat)}
    (hr : (n.deserializeWithFs cfg mountFds).run performSession w = (.ok false, w')) :
    w' = w := by
  have hinsert : ∀ {d : InodeData} {w₁ w₂ : World}, ((n.insert d).bind fun _ => .ret true).run
      performSession w₁ ≠ (.ok false, w₂) := by
    intro d w₁ w₂ h
    obtain ⟨_, _, _, h⟩ := of_run_bind _ h
    cases h
  unfold deserializeWithFs at hr
  cases hl : n.location with
  | rootNode =>
    simp only [hl, bind_eq] at hr
    split at hr
    · cases hr
    · obtain ⟨_, _, _, hr⟩ := of_run_bind _ hr
      cases hr
  | path parent filename =>
    simp only [hl, bind_eq] at hr
    split at hr
    · cases hr
    · obtain ⟨p, w₁, hquery, hr⟩ := of_run_bind _ hr
      cases hquery
      split at hr
      · cases hr
        rfl
      · obtain ⟨_, _, _, hr⟩ := of_run_bind _ hr
        obtain ⟨_, _, _, hr⟩ := of_run_bind _ hr
        obtain ⟨_, _, _, hr⟩ := of_run_bind _ hr
        exact absurd hr hinsert
  | invalid =>
    simp only [hl, bind_eq] at hr
    obtain ⟨_, _, _, hr⟩ := of_run_bind _ hr
    exact absurd hr hinsert
  | fullPath filename =>
    simp only [hl, bind_eq] at hr
    split at hr
    · cases hr
    · obtain ⟨root, w₁, hroot, hr⟩ := of_run_bind _ hr
      obtain ⟨-, hsame⟩ := of_strongReference_run hroot
      split at hr
      · cases hr
        exact hsame _ rfl
      · obtain ⟨_, _, _, hr⟩ := of_run_bind _ hr
        obtain ⟨_, _, _, hr⟩ := of_run_bind _ hr
        exact absurd hr hinsert
  | fileHandle handle =>
    simp only [hl, bind_eq] at hr
    split at hr
    · cases hr
    · obtain ⟨_, _, _, hr⟩ := of_run_bind _ hr
      obtain ⟨_, _, _, hr⟩ := of_run_bind _ hr
      exact absurd hr hinsert

end SerializedInode

/-! ## 3. A whole stream -/

/-- **The reference says nothing else than the location**, where it is not compared: the
handle by which the inode is found is the reference, or every file by that name has it. -/
def ReferenceHolds (oracle : Nat → Host) (handleOf : Fd → SerializableFileHandle)
    (n : SerializedInode) : Prop :=
  ∀ h, n.fileHandle = some h →
    (∀ fh, n.location = .fileHandle fh → fh.SameFile h) ∧
    ∀ f, n.location = .fullPath f → ∀ k dir fd,
      oracle k (.openat dir f (O_PATH ||| O_NOFOLLOW ||| O_CLOEXEC) none) = .ok fd →
        (handleOf fd).SameFile h

/-- What is known of an inode and the entry of the stream it was restored from. -/
def Identified (cfg : Config) (oracle : Nat → Host)
    (handleOf : Fd → SerializableFileHandle) (n : SerializedInode) (d : InodeData) : Prop :=
  d.inode = n.id ∧ (ReferenceHolds oracle handleOf n → Verified handleOf n d) ∧
    (cfg.migrationOnError = .abort → (∃ fh, n.location = .fileHandle fh) →
      Verified handleOf n d → ReferenceHolds oracle handleOf n)

section

variable {cfg : Config} {oracle : Nat → Host}
  {handleOf : Fd → SerializableFileHandle} {table pending : List SerializedInode} {w w' : World}

theorem Restored.identified {n : SerializedInode} {d : InodeData}
    (h : Restored cfg oracle handleOf n d) : Identified cfg oracle handleOf n d := by
  refine ⟨h.inode, fun href => ?_, ?_⟩
  · cases hl : n.location with
    | rootNode => exact h.checked (.inl hl)
    | path p f => exact h.checked (.inr ⟨p, f, hl⟩)
    | invalid =>
      obtain ⟨e, he⟩ := h.lost hl
      intro ref hn own hown
      rw [he] at hown
      cases hown
    | fullPath f =>
      intro ref hn own hown
      obtain ⟨k, dir, fd, hfd, hsame⟩ := h.byPath f hl own hown
      exact hsame.trans ((href ref hn).2 f hl k dir fd hfd)
    | fileHandle fh =>
      intro ref hn own hown
      exact (h.byHandle fh hl own hown).trans ((href ref hn).1 fh hl)
  · rintro habort ⟨fh, hl⟩ hver ref hn
    obtain ⟨own, hown⟩ := h.valid habort
    refine ⟨fun fh' hl' => ?_, by simp [hl]⟩
    exact (h.byHandle fh' hl' own hown).symm.trans (hver ref hn own hown)

/-- The entries restored so far, in the order in which they were accepted. -/
def Accepted (cfg : Config) (oracle : Nat → Host)
    (handleOf : Fd → SerializableFileHandle) (table pending : List SerializedInode) (w : World) :
    Prop :=
  w.oracle = oracle ∧ ∃ entries, table.Perm (entries ++ pending) ∧
    List.Forall₂ (Restored cfg oracle handleOf) entries w.fs.inodes.accepted

theorem Accepted.accept {n : SerializedInode} {d : InodeData} {rest : List SerializedInode}
    (h : Accepted cfg oracle handleOf table pending w) (hperm : pending.Perm (n :: rest))
    (ho : w'.oracle = w.oracle) (hacc : Accepts w w' d) (hd : Restored cfg oracle handleOf n d) :
    Accepted cfg oracle handleOf table rest w' := by
  obtain ⟨horacle, entries, htable, hall⟩ := h
  refine ⟨ho.trans horacle, entries ++ [n], ?_, ?_⟩
  · rw [List.append_assoc]
    exact htable.trans (hperm.append_left entries)
  · rw [hacc]
    exact List.rel_append hall (.cons hd .nil)

theorem Accepted.neutral {α : Type} {p : NeutralM α} {o : Outcome IoError PanicSite α}
    (h : Accepted cfg oracle handleOf table pending w)
    (hr : (liftM p : SessionM α).run performSession w = (o, w')) :
    Accepted cfg oracle handleOf table pending w' := by
  obtain ⟨horacle, entries, htable, hall⟩ := h
  have hs := neutral_session_inodes p w
  rw [hr] at hs
  refine ⟨(SerializedInode.oracle_of_run hr).trans horacle, entries, htable, ?_⟩
  rw [hs]
  exact hall

theorem accepted_rule (hk : KernelHandles oracle handleOf) (mountFds : List (Nat × Nat)) :
    Deferral.Rule performSession (SerializedInode.deserializeWithFs cfg mountFds)
      (Accepted cfg oracle handleOf table) where
  defer _ _ hr := SerializedInode.deserializeWithFs_defers hr
  step := by
    intro l rest w w' n h hperm hr
    obtain rfl := h.1
    obtain ⟨d, hacc, hd⟩ := SerializedInode.deserializeWithFs_accepts hk hr
    exact h.accept hperm (SerializedInode.oracle_of_run hr) hacc hd

theorem restoreRoot_accepts (hk : KernelHandles oracle handleOf)
    {mountPaths : List (Nat × Name)} {mountFds : List (Nat × Nat)}
    (h : Accepted cfg oracle handleOf table table w)
    (hr : (restoreRoot cfg mountPaths table).run performSession w =
      (.ok (mountFds, pending), w')) : Accepted cfg oracle handleOf table pending w' := by
  unfold restoreRoot at hr
  split at hr
  · cases hr
    exact h
  · split at hr
    · cases hr
    · split at hr
      · cases hr
      · rename_i n hroot
        simp only [bind_eq] at hr
        obtain ⟨_, w₁, hn, hr⟩ := of_run_bind _ hr
        obtain rfl := h.1
        obtain ⟨d, hacc, hd⟩ := SerializedInode.deserializeRootNode_accepts hk hn
        have h₁ := h.accept (perm_swapRemove hroot) (SerializedInode.oracle_of_run hn) hacc hd
        obtain ⟨_, w₂, hquery, hr⟩ := of_run_bind _ hr
        cases hquery
        split at hr
        · cases hr
        · obtain ⟨file, w₃, hfile, hr⟩ := of_run_bind _ hr
          obtain ⟨mounts, w₄, hmounts, hr⟩ := of_run_bind _ hr
          cases hr
          exact (h₁.neutral hfile).neutral hmounts

theorem restoreInodes_accepts (hk : KernelHandles w.oracle handleOf)
    {mountPaths : List (Nat × Name)}
    (hr : (restoreInodes cfg mountPaths table).run performSession w = (.ok (), w')) :
    Accepted cfg w.oracle handleOf table [] w' := by
  unfold restoreInodes at hr
  simp only [bind_eq] at hr
  obtain ⟨_, w₁, hclear, hr⟩ := of_run_bind _ hr
  have h₁ : Accepted cfg w.oracle handleOf table table w₁ := by
    cases hclear
    exact ⟨rfl, [], List.Perm.refl _, .nil⟩
  obtain ⟨⟨mountFds, pending⟩, w₂, hroot, hr⟩ := of_run_bind _ hr
  have h₂ := restoreRoot_accepts hk h₁ hroot
  have hend := Deferral.loop_run unresolvedReferences
    (accepted_rule hk mountFds) pending.length pending w₂ (le_refl _) h₂
  have hloop : (Deferral.loop (SerializedInode.deserializeWithFs cfg mountFds) unresolvedReferences
    pending.length pending).run performSession w₂ = (.ok (), w') := hr
  rw [hloop] at hend
  cases hend with
  | done hinv => exact hinv
  | failed hf =>
    obtain ⟨_, _, _, _, _, ⟨_, h, _⟩ | ⟨_, h, _⟩⟩ := hf <;> cases h

theorem apply_accepts {state : SerializedFs} (hk : KernelHandles w.oracle handleOf)
    (hr : (state.apply cfg).run performSession w = (.ok (), w')) :
    Accepted cfg w.oracle handleOf state.inodes [] w' := by
  obtain ⟨w₁, w₂, w₃, hopts, hinodes, hhandles, rfl⟩ := SerializedFs.apply_run_iff.mp hr
  have ho₁ := SerializedInode.oracle_of_run hopts
  have h₂ := restoreInodes_accepts (ho₁ ▸ hk) hinodes
  rw [ho₁] at h₂
  -- the rest does not touch the inodes
  have h₃ : Accepted cfg w.oracle handleOf state.inodes [] w₃ :=
    Accepted.neutral (w := w₂.cleared state.nextInode) h₂ hhandles
  exact h₃

theorem InodeStoreInner.mem_accepted {s : InodeStoreInner} {i : Inode} {r : InodeRef}
    (h : s.get i = some r) : r.data ∈ s.accepted := by
  obtain ⟨-, c, hc, hd⟩ := get_eq_some.mp h
  exact List.mem_map.mpr ⟨c, List.mem_of_getElem? hc, hd⟩

/-- **Every inode that `apply` accepts is invalid or the one the source has sent the handle
of**, if the handle is compared or says nothing else than the location does.  For inodes that
are found by their handle this is exact: with `--migration-on-error=abort`, one whose
reference is another handle is accepted all the same. -/
theorem accepted_inodes_identified {state : SerializedFs} (hk : KernelHandles w.oracle handleOf)
    (hr : (state.apply cfg).run World.performSession w = (.ok (), w')) :
    (∃ entries, state.inodes.Perm entries ∧
      List.Forall₂ (Identified cfg w.oracle handleOf) entries w'.fs.inodes.accepted) ∧
    ∀ i r, w'.fs.inodes.get i = some r → r.data ∈ w'.fs.inodes.accepted := by
  refine ⟨?_, fun i r => InodeStoreInner.mem_accepted⟩
  obtain ⟨-, entries, hperm, hall⟩ := apply_accepts hk hr
  rw [List.append_nil] at hperm
  exact ⟨entries, hperm, hall.imp fun _ _ h => h.identified⟩

end

/-! ## 4. Two streams -/

/-- The file a handle is of. -/
def handleFile (fh : FileHandle) : Except Errno Fd :=
  match fh.handleType, fh.handle with
  | 1, [b] => .ok b.toNat
  | _, _ => .error EIO

/-- A host where the handle of a file is its descriptor. -/
def handleHost (k : Nat) : Host
  | .openByHandle fh _ => handleFile fh
  | .nameToHandle fd _ => .ok ⟨1, 1, [UInt8.ofNat fd]⟩
  | c => obligingHost k c

def descriptorHandle (fd : Fd) : SerializableFileHandle := ⟨1, 1, [UInt8.ofNat fd]⟩

theorem handleHost_kernelHandles : KernelHandles handleHost descriptorHandle where
  named k fd fh h := by
    cases h
    exact ⟨rfl, rfl⟩
  opened k fh flags fd h := by
    have h : handleFile fh = .ok fd := h
    unfold handleFile at h
    split at h
    · rename_i b htype hhandle
      cases h
      exact ⟨htype.symm, by simp [descriptorHandle, FileHandle.toSerializable, hhandle]⟩
    · cases h

def handleWorld : World := ⟨.initial 8 false, handleHost, 0⟩

/-- The root, with descriptor 3, and one more inode. -/
def streamOf (n : SerializedInode) : SerializedFs where
  inodes := [n, ⟨ROOT_ID, 3, .rootNode, some (descriptorHandle 3)⟩]
  nextInode := 3
  handles := []
  nextHandle := 0
  negotiatedOpts := ⟨false, false, false, false⟩
  mountPaths := [(1, [0x2f])]

/-- `a` in the root directory has descriptor 4. -/
def namedEntry : SerializedInode := ⟨2, 1, .path ROOT_ID [0x61], some (descriptorHandle 4)⟩

/-- Descriptor 4 as well; the reference is that of another file. -/
def handleEntry : SerializedInode :=
  ⟨2, 1, .fileHandle (descriptorHandle 4), some (descriptorHandle 9)⟩

def fullPathEntry : SerializedInode := ⟨2, 1, .fullPath [0x61], some (descriptorHandle 9)⟩

/-- The world after a stream was applied. -/
def appliedStream (n : SerializedInode) : World :=
  (((streamOf n).apply Config.default).run World.performSession handleWorld).2

/-- A stream whose inodes are compared with their references. -/
theorem accepted_inodes_identified_named :
    (∃ entries, (streamOf namedEntry).inodes.Perm entries ∧
      List.Forall₂ (Identified Config.default handleHost descriptorHandle) entries
        (appliedStream namedEntry).fs.inodes.accepted) ∧
    ∀ i r, (appliedStream namedEntry).fs.inodes.get i = some r →
      r.data ∈ (appliedStream namedEntry).fs.inodes.accepted := by
  have hr : ((streamOf namedEntry).apply Config.default).run World.performSession handleWorld =
      (.ok (), appliedStream namedEntry) := rfl
  exact accepted_inodes_identified handleHost_kernelHandles hr

/-- The inode is in the store, and not the one the source has sent the handle of. -/
def MismatchAccepted (n : SerializedInode) : Prop :=
  ((streamOf n).apply Config.default).run World.performSession handleWorld =
      (.ok (), appliedStream n) ∧
    ∃ r, (appliedStream n).fs.inodes.get n.id = some r ∧ ¬ Verified descriptorHandle n r.data

/-- **Inodes that are found by a handle or by a full path are not verified**, even with
`--migration-on-error=abort`: the reference handle is that of descriptor 9, and the inode
that is accepted has descriptor 4. -/
theorem unverified_inodes_accepted :
    KernelHandles handleHost descriptorHandle ∧ Config.default.migrationOnError = .abort ∧
      MismatchAccepted handleEntry ∧ MismatchAccepted fullPathEntry := by
  have hdiffers : ∀ n : SerializedInode, ∀ ids mode, n.fileHandle = some (descriptorHandle 9) →
      ¬ Verified descriptorHandle n ⟨2, .file 4, ids, mode⟩ := by
    intro n ids mode hn hver
    have hsame := (hver _ hn _ rfl).2
    revert hsame
    decide
  refine ⟨handleHost_kernelHandles, rfl, ⟨rfl, _, rfl, hdiffers _ _ _ rfl⟩,
    rfl, _, rfl, hdiffers _ _ _ rfl⟩

end Virtiofsd
