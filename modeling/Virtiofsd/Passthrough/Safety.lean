/-
  # What the helper functions return, and that they do not panic

  `Lib.Meets` for the programs that open, stat and name files.  None of them panics: the
  table of mount descriptors exists whenever file handles are used (`Config.mountFds`).  The
  lemmas hold for any restriction `ok` on what the host answers; those that say something
  about a value say it in terms of that restriction.
-/
import Virtiofsd.Lib.Answers
import Virtiofsd.Passthrough.Lookup

namespace Virtiofsd

open Lib

/-- What the host and the shared state may answer. -/
abbrev AllowedAnswers := (a : NeutralAct) → a.Ans → Prop

variable {ok : AllowedAnswers} {safe : LocalPanic → Prop} {α : Type} {Q : α → Prop}

/-! ## 1. Single actions -/

theorem host_meets (c : HostCall) : Meets ok safe (host c) (ok (.host c)) :=
  Obeys.act trivial fun _ hr => Obeys.ret hr

theorem query_meets (q : Query) : Meets ok safe (query q) (ok (.query q)) :=
  Obeys.act trivial fun _ hr => Obeys.ret hr

theorem errno_meets (r : Except Errno α) : Meets ok safe (errno r) (fun a => r = .ok a) := by
  cases r with
  | ok a => exact Obeys.ret rfl
  | error e => exact Obeys.err

theorem ofExcept_meets (r : Except IoError α) :
    Meets ok safe (Prog.ofExcept r) (fun a => r = .ok a) := by
  cases r with
  | ok a => exact Obeys.ret rfl
  | error e => exact Obeys.err

theorem errContext_meets {p : NeutralM α} {msg : String} (hp : Meets ok safe p Q) :
    Meets ok safe (errContext p msg) Q :=
  hp.attempt_bind (fun _ h => Obeys.ret h) fun _ => Obeys.err

/-! ## 2. Files and handles -/

theorem getFile_meets (d : InodeData) : Meets ok safe d.getFile (fun _ => True) := by
  unfold InodeData.getFile
  split
  · exact Obeys.ret trivial
  · exact (host_meets _).bind fun r _ => (errno_meets r).mono fun _ _ => trivial
  · exact Obeys.err

theorem openFile_meets (d : InodeData) (flags : UInt32) :
    Meets ok safe (d.openFile flags) (fun _ => True) := by
  unfold InodeData.openFile
  split
  · split
    · exact Obeys.err
    · exact (host_meets _).bind fun r _ => (errno_meets r).mono fun _ _ => trivial
  · split
    · exact Obeys.err
    · exact (host_meets _).bind fun r _ => (errno_meets r).mono fun _ _ => trivial
  · exact Obeys.err

/-- `fh` is a handle of the file: the one it is known by, or one the host has for it. -/
def FileOrHandle.HasHandle (ok : AllowedAnswers) (fh : SerializableFileHandle) :
    FileOrHandle → Prop
  | .handle h => fh = h.toSerializable
  | .file fd => ∃ h, ok (.host (.nameToHandle fd none)) (.ok h) ∧ fh = h.toSerializable
  | .invalid _ => False

/-- The open file `fd`, or its handle. -/
def FileOrHandle.IsFile (ok : AllowedAnswers) (fd : Fd) : FileOrHandle → Prop
  | .handle h => ok (.host (.nameToHandle fd none)) (.ok h)
  | .file fd' => fd' = fd
  | .invalid _ => False

theorem toSerializable_meets (f : FileOrHandle) :
    Meets ok safe f.toSerializable (fun fh => f.HasHandle ok fh) := by
  cases f with
  | handle h => exact Obeys.ret rfl
  | file fd =>
    refine (host_meets _).bind fun r hr => ?_
    refine (errno_meets r).bind fun h hh => ?_
    obtain rfl := hh
    exact Obeys.ret ⟨h, hr, rfl⟩
  | invalid e => exact Obeys.err

theorem statx_meets (fd : Fd) (name : Option Name) :
    Meets ok safe (statx fd name) (fun _ => True) :=
  (host_meets _).bind fun r _ => (ofExcept_meets r).mono fun _ _ => trivial

/-- There are mount descriptors whenever there are file handles. -/
theorem mountFds_of_fileHandles {cfg : Config} (h : cfg.inodeFileHandles ≠ .never) :
    cfg.mountFds = true := by
  simp [Config.mountFds, h]

theorem getFileHandleOpt_meets (cfg : Config) (fd : Fd) (st : StatExt) :
    Meets ok safe (getFileHandleOpt cfg fd st) (fun h => ∀ fh, h = some fh →
      cfg.inodeFileHandles ≠ .never ∧ ok (.host (.nameToHandle fd none)) (.ok fh)) := by
  unfold getFileHandleOpt
  split
  · exact Obeys.ret (by simp)
  · rename_i hmode
    refine (host_meets _).bind fun r hr => ?_
    cases r with
    | ok fh =>
      refine Obeys.ret fun fh' hfh => ?_
      cases hfh
      exact ⟨hmode, hr⟩
    | error e =>
      simp only [mountFds_of_fileHandles hmode, Bool.not_true, Bool.false_eq_true, and_false,
        ↓reduceIte]
      split
      · exact Obeys.err
      · split
        · exact Obeys.err
        · exact Obeys.ret (by simp)

theorem makeFileHandleOpenable_meets {cfg : Config} (h : cfg.inodeFileHandles ≠ .never)
    (fh : FileHandle) : Meets ok safe (makeFileHandleOpenable cfg fh) (fun _ => True) := by
  unfold makeFileHandleOpenable
  simp only [mountFds_of_fileHandles h, Bool.not_true, Bool.false_eq_true, ↓reduceIte]
  exact (host_meets _).bind fun r _ => (ofExcept_meets r).mono fun _ _ => trivial

theorem allocateFd_meets : Meets ok safe allocateFd (fun _ => True) := by
  refine (query_meets _).bind fun r _ => ?_
  cases r with
  | true => exact Obeys.ret trivial
  | false => exact Obeys.err

theorem dropFile_meets (f : FileOrHandle) : Meets ok safe (dropFile f) (fun _ => True) := by
  cases f with
  | file fd => exact (query_meets _).mono fun _ _ => trivial
  | handle | invalid => exact Obeys.ret trivial

theorem newFileOrHandle_meets {cfg : Config} (pathFd : Fd) (handle : Option FileHandle)
    (h : ∀ fh, handle = some fh →
      cfg.inodeFileHandles ≠ .never ∧ ok (.host (.nameToHandle pathFd none)) (.ok fh)) :
    Meets ok safe (newFileOrHandle cfg pathFd handle) (fun f => f.IsFile ok pathFd) := by
  cases handle with
  | some fh =>
    obtain ⟨hmode, hfh⟩ := h fh rfl
    exact (makeFileHandleOpenable_meets hmode fh).bind fun _ _ => Obeys.ret hfh
  | none => exact allocateFd_meets.bind fun _ _ => Obeys.ret rfl

theorem verifyHandle_meets (cfg : Config) (f : FileOrHandle) :
    Meets ok safe (verifyHandle cfg f) (fun _ => True) := by
  unfold verifyHandle
  split
  · exact (toSerializable_meets f).bind fun _ _ => Obeys.ret trivial
  · exact Obeys.ret trivial

end Virtiofsd
