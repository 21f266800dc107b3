/-
  # A SETATTR that is refused (`setattr`)

  A SETATTR request is carried out call by call: first the mode, then the owner and the group,
  then the size, then the times.  The IDs are translated in the second step.  So a request whose
  IDs the map does not allow fails, but its mode has been set by then.

  Nothing is changed exactly if the request does not ask for a mode (`setattr_refused_iff`).
-/
import Virtiofsd.Passthrough.Ledger
import Virtiofsd.SoftIdmap

namespace Virtiofsd

open Lib

/-! ## 1. The file on the host -/

/-- **The attributes of the file** that a SETATTR request is for. -/
structure HostFile where
  mode : UInt32
  uid : UInt32
  gid : UInt32
  size : Nat
  atime : Nat × Nat
  mtime : Nat × Nat
  capabilities : Option (List UInt8)

namespace HostFile

/-- What a call that succeeds may do to the file; `chmod` sets the mode and nothing else. -/
def LibcEffect (f f' : HostFile) : LibcCall → Prop
  | .fchmod _ mode => f' = { f with mode := mode &&& 0o7777 }
  | .fchmodat _ mode => f' = { f with mode := mode &&& 0o7777 }
  | .fsync _ => f' = f
  | .fdatasync _ => f' = f
  | .syncfs _ => f' = f
  | .close _ => f' = f
  | _ => True

/-- **What an action may do to the file.**  Calls that fail do nothing, and neither does an
`open` that does not truncate. -/
def Effect (f f' : HostFile) : (a : NeutralAct) → a.Ans → Prop
  | .host (.libc c), ok => if ok = true then LibcEffect f f' c else f' = f
  | .host (.openat _ _ flags _), _ => flags &&& O_TRUNC = 0 → f' = f
  | .host (.reopen _ flags), _ => flags &&& O_TRUNC = 0 → f' = f
  | .host (.openByHandle _ flags), _ => flags &&& O_TRUNC = 0 → f' = f
  | .host (.pwritev ..), _ => True
  | .host (.fchmodPath ..), _ => True
  | .host (.copyFileRange ..), _ => True
  | _, _ => f' = f

/-- The host, as seen from the file. -/
def spec : Spec NeutralAct NeutralAct.Ans HostFile where
  pre _ _ := True
  post a f r f' := Effect f f' a r

end HostFile

/-- A program that does nothing to the file, and does not panic. -/
def Still {α : Type} (p : NeutralM α) : Prop :=
  ∀ f, p.wp HostFile.spec (fun o f' => o.Safe ∧ f' = f) f

namespace Still

variable {α β : Type} {p : NeutralM α} {k : α → NeutralM β}

theorem ret (a : α) : Still (.ret a : NeutralM α) := fun _ => ⟨Outcome.safe_ok a, rfl⟩

theorem err (e : IoError) : Still (.err e : NeutralM α) := fun _ => ⟨Outcome.safe_err e, rfl⟩

theorem bind (hp : Still p) (hk : ∀ a, Still (k a)) : Still (p.bind k) := by
  intro f
  refine Prog.wp_bind_of (hp f) ?_ ?_ ?_
  · rintro a f' ⟨-, rfl⟩
    exact hk a f'
  · rintro e f' ⟨-, rfl⟩
    exact ⟨Outcome.safe_err e, rfl⟩
  · rintro q f' ⟨hsafe, -⟩
    exact absurd rfl (hsafe q)

theorem perform {a : NeutralAct} (h : ∀ r f f', HostFile.Effect f f' a r → f' = f) :
    Still (Prog.perform a : NeutralM a.Ans) :=
  fun f => ⟨trivial, fun r f' hr => ⟨Outcome.safe_ok r, h r f f' hr⟩⟩

theorem errno (r : Except Errno α) : Still (Virtiofsd.errno r : NeutralM α) := by
  cases r with
  | ok a => exact ret a
  | error e => exact err _

end Still

/-- A program that fails, and does nothing to the file. -/
def Refuses {α : Type} (p : NeutralM α) : Prop :=
  ∀ f, p.wp HostFile.spec (fun o f' => (∃ e, o = .err e) ∧ f' = f) f

theorem Refuses.err {α : Type} (e : IoError) : Refuses (.err e : NeutralM α) :=
  fun _ => ⟨⟨e, rfl⟩, rfl⟩

theorem Still.bind_refuses {α β : Type} {p : NeutralM α} {k : α → NeutralM β} (hp : Still p)
    (hk : ∀ a, Refuses (k a)) : Refuses (p.bind k) := by
  intro f
  refine Prog.wp_bind_of (hp f) ?_ ?_ ?_
  · rintro a f' ⟨-, rfl⟩
    exact hk a f'
  · rintro e f' ⟨-, rfl⟩
    exact ⟨⟨e, rfl⟩, rfl⟩
  · rintro q f' ⟨hsafe, -⟩
    exact absurd rfl (hsafe q)

namespace PassthroughFs

theorem getInode_still (inode : Inode) : Still (getInode inode) := by
  refine Still.bind (Still.perform fun _ _ _ h => h) ?_
  rintro (_ | r)
  · exact Still.err _
  · exact Still.ret r

theorem findHandle_still (handle : Handle) (inode : Inode) : Still (findHandle handle inode) := by
  refine Still.bind (Still.perform fun _ _ _ h => h) ?_
  rintro (_ | data)
  · exact Still.err _
  · dsimp only
    split
    · exact Still.ret _
    · exact Still.err _

theorem getFile_still (d : InodeData) : Still d.getFile := by
  unfold InodeData.getFile
  split
  · exact Still.ret _
  · exact Still.bind (Still.perform fun _ _ _ h => h rfl) fun r => Still.errno r
  · exact Still.err _

theorem openFile_still (d : InodeData) {flags : UInt32} (hflags : flags &&& O_TRUNC = 0) :
    Still (d.openFile flags) := by
  unfold InodeData.openFile
  split
  · split
    · exact Still.err _
    · exact Still.bind (Still.perform fun _ _ _ h => h hflags) fun r => Still.errno r
  · split
    · exact Still.err _
    · exact Still.bind (Still.perform fun _ _ _ h => h hflags) fun r => Still.errno r
  · exact Still.err _

/-! ## 2. A refused request -/

section

variable (cfg : Config) (inode : Inode) (attr : SetattrIn) (handle : Option Handle)
  (valid : SetattrValid)

/-- The map does not allow the user ID or the group ID. -/
def RefusedIds : Prop :=
  (valid.uid = true ∧ ∃ e, cfg.uidMap.mapGuest attr.uid = .error e) ∨
    (valid.gid = true ∧ ∃ e, cfg.gidMap.mapGuest attr.gid = .error e)

variable {cfg attr valid}

section

variable (h : RefusedIds cfg attr valid)

include h

/-- The second step fails before it does anything. -/
theorem setattrOwner_refused (inodeFile : Fd) (type : Nat) :
    ∃ e, setattrOwner cfg inodeFile type attr valid = .err e := by
  unfold setattrOwner mapIdIf
  rcases h with ⟨huid, e, he⟩ | ⟨hgid, e, he⟩
  · exact ⟨e, by simp [huid, he, Prog.ofExcept]⟩
  · by_cases huid : valid.uid = true
    · cases hmap : cfg.uidMap.mapGuest attr.uid with
      | error e' => exact ⟨e', by simp [huid, Prog.ofExcept]⟩
      | ok uid => exact ⟨e, by simp [huid, hgid, he, Prog.ofExcept]⟩
    · exact ⟨e, by simp [huid, hgid, he, Prog.ofExcept]⟩

theorem RefusedIds.requested :
    (valid.uid || valid.gid) = true := by
  rcases h with ⟨huid, -⟩ | ⟨hgid, -⟩
  · rw [huid, Bool.true_or]
  · rw [hgid, Bool.or_true]

/-- What follows once the descriptors are there, if no mode is asked for. -/
theorem refuses_owner {α : Type} (inodeFile : Fd) (type : Nat) (k : Unit → NeutralM α) :
    Refuses ((setattrOwner cfg inodeFile type attr valid).bind k) := by
  obtain ⟨e, he⟩ := setattrOwner_refused h inodeFile type
  rw [he]
  exact Refuses.err e

theorem setattr_refuses (hmode : valid.mode = false) :
    Refuses (setattr cfg inode attr handle valid) := by
  unfold setattr
  refine Still.bind_refuses (getInode_still inode) fun data => ?_
  simp only [hmode, Bool.false_eq_true, if_false, h.requested, if_true]
  split
  · refine Still.bind_refuses (openFile_still _ (by decide)) fun inodeFile => ?_
    split
    · refine Still.bind_refuses (findHandle_still _ _) fun x => ?_
      exact refuses_owner h _ _ _
    · exact refuses_owner h _ _ _
  · refine Still.bind_refuses (getFile_still _) fun inodeFile => ?_
    split
    · refine Still.bind_refuses (findHandle_still _ _) fun x => ?_
      exact refuses_owner h _ _ _
    · exact refuses_owner h _ _ _

end

/-! ## 3. A host on which the mode changes -/

/-- A regular file that is open. -/
def regularInode : InodeRef := ⟨0, ⟨1, .file 3, ⟨0, 0, 0⟩, S_IFREG⟩⟩

/-- A host on which every call succeeds, with the file as its state. -/
def obligingFile : (a : NeutralAct) → HostFile → a.Ans × HostFile
  | .host (.libc (.fchmod _ mode)), f => (true, { f with mode := mode &&& 0o7777 })
  | .host (.libc (.fchmodat _ mode)), f => (true, { f with mode := mode &&& 0o7777 })
  | .host c, f => (obligingHost 0 c, f)
  | .query (.get _), f => (some regularInode, f)
  | .query (.findHandle inode _), f => (some ⟨inode, .ok 3, S_IFREG, 0⟩, f)
  | .query q, f => ((PassthroughFs.answer q (.initial 0 false)).1, f)

theorem obligingFile_effect (a : NeutralAct) (f : HostFile) :
    HostFile.Effect f (obligingFile a f).2 a (obligingFile a f).1 := by
  rcases a with c | q
  · cases c with
    | libc c => cases c <;> trivial
    | _ => first | rfl | trivial | exact fun _ => rfl
  · cases q <;> rfl

theorem setattr_changes_mode (h : RefusedIds cfg attr valid) (hmode : valid.mode = true)
    (f : HostFile) :
    ((setattr cfg inode attr handle valid).run obligingFile f).2 =
      { f with mode := attr.mode &&& 0o7777 } := by
  choose e he using setattrOwner_refused h
  unfold setattr
  simp only [hmode, if_true, h.requested, he]
  cases handle with
  | none => cases hsize : valid.size <;> rfl
  | some handle => rfl

variable (cfg attr valid)

/-- **A SETATTR request with IDs that are not allowed leaves the file as it is, on every host,
exactly if it does not ask for a mode.** -/
theorem setattr_refused_iff (h : RefusedIds cfg attr valid) :
    Refuses (setattr cfg inode attr handle valid) ↔ valid.mode = false := by
  constructor
  · intro hrefuses
    by_contra hmode
    rw [Bool.not_eq_false] at hmode
    -- a file with another mode
    obtain ⟨mode, hne⟩ : ∃ mode, mode ≠ attr.mode &&& 0o7777 := by
      by_cases hzero : attr.mode &&& 0o7777 = 0
      · exact ⟨1, hzero ▸ by decide⟩
      · exact ⟨0, Ne.symm hzero⟩
    let f : HostFile := ⟨mode, 0, 0, 0, (0, 0), (0, 0), none⟩
    have hhost : ∀ a s g, s = g → HostFile.spec.pre a g →
        ∃ g', HostFile.spec.post a g (obligingFile a s).1 g' ∧ (obligingFile a s).2 = g' := by
      rintro a s _ rfl -
      exact ⟨_, obligingFile_effect a s, rfl⟩
    obtain ⟨f', hrun, -, hsame⟩ := Prog.wp_run hhost _ rfl (hrefuses f)
    rw [setattr_changes_mode inode handle h hmode] at hrun
    exact hne (congrArg HostFile.mode (hrun.trans hsame)).symm
  · exact setattr_refuses inode handle h

end

/-- A map that forbids the ID 7. -/
def sevenForbidden : Config := { Config.default with uidMap := SoftIdmap.sevenForbiddenMap }

/-- A chown to the user 7, with a mode or without. -/
def chownSeven (mode : Bool) : SetattrValid :=
  ⟨mode, true, false, false, false, false, false, false, false⟩

theorem chownSeven_refused (mode : Bool) :
    RefusedIds sevenForbidden ⟨0o777, 7, 0, 0, 0, 0, 0, 0⟩ (chownSeven mode) :=
  .inl ⟨rfl, _, rfl⟩

/-- **A refused request that makes the file writable for everybody.** -/
theorem refused_setattr_changes_mode :
    (setattr sevenForbidden ROOT_ID ⟨0o777, 7, 0, 0, 0, 0, 0, 0⟩ none (chownSeven true)).run
        obligingFile ⟨0o600, 0, 0, 0, (0, 0), (0, 0), none⟩ =
      (.err (.custom .permissionDenied "Use of ID 7 has been configured to fail"),
        ⟨0o777, 0, 0, 0, (0, 0), (0, 0), none⟩) := rfl

theorem setattr_refused_chown :
    Refuses (setattr sevenForbidden ROOT_ID ⟨0o777, 7, 0, 0, 0, 0, 0, 0⟩ none
      (chownSeven false)) :=
  (setattr_refused_iff sevenForbidden ROOT_ID _ none _ (chownSeven_refused false)).mpr rfl

end PassthroughFs

end Virtiofsd
