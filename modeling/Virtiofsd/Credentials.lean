/-
  # Switching a worker thread to the guest user's credentials (`credentials.rs`)

  Before it creates a file on behalf of a guest user, the daemon changes the effective
  uid, the effective gid and the supplementary groups of the worker thread, and a guard
  object changes them back when the request is over.  The worker threads are reused, so
  whatever a request leaves behind is what the next request on that thread runs with.

  * `UnixCredentials.set` and `UnixCredentialsGuard.drop` are the source's functions, over
    the three identities of one thread and with every failure pattern of the three calls.
  * `SetRestores` says exactly when a call of `set` and the drop of its guard together
    leave the thread as it was.  It is NOT always so: the guard is the only thing that
    clears the groups, and `set` can install groups and then return no guard, either
    because neither id changes or because a later call fails.
-/
import Virtiofsd.Basic
import Mathlib

namespace Virtiofsd

/-! ## 1. The identities of a thread and the calls that change them -/

/-- `(uid_t) -1`: to `setresuid`/`setresgid` it means "leave this id alone". -/
def invalidId : UInt32 := 0xFFFFFFFF

/-- An id that the kernel can hold for a thread: every value but `(uid_t) -1`. -/
abbrev KernelId := { id : UInt32 // id ≠ invalidId }

/-- The identities of a worker thread that file creation depends on. -/
@[ext]
structure ThreadIds where
  euid : KernelId
  egid : KernelId
  groups : List UInt32
  deriving DecidableEq

/-- Which of the calls made by `set` fail, and with what. -/
structure SetFailures where
  setGroups : Option Errno
  setEgid : Option Errno
  setEuid : Option Errno

/-- A computation on a thread's identities that may fail; the identities changed before a
failure stay changed. -/
abbrev ThreadM := EStateM IoError ThreadIds

/-- A host call that either fails with `fail`, changing nothing, or applies `f`. -/
def hostCall (fail : Option Errno) (f : ThreadIds → ThreadIds) : ThreadM Unit :=
  match fail with
  | some e => throw (.os e)
  | none => modify f

/-- What `setresuid(-1, uid, -1)` stores. -/
def ThreadIds.withEuid (t : ThreadIds) (uid : UInt32) : ThreadIds :=
  if h : uid ≠ invalidId then { t with euid := ⟨uid, h⟩ } else t

/-- What `setresgid(-1, gid, -1)` stores. -/
def ThreadIds.withEgid (t : ThreadIds) (gid : UInt32) : ThreadIds :=
  if h : gid ≠ invalidId then { t with egid := ⟨gid, h⟩ } else t

/-- `oslib::seteffuid`. -/
def seteffuid (uid : UInt32) (fail : Option Errno) : ThreadM Unit :=
  hostCall fail (·.withEuid uid)

/-- `oslib::seteffgid`. -/
def seteffgid (gid : UInt32) (fail : Option Errno) : ThreadM Unit :=
  hostCall fail (·.withEgid gid)

/-- `oslib::setsupgroup`. -/
def setsupgroup (gids : List UInt32) (fail : Option Errno) : ThreadM Unit :=
  hostCall fail ({ · with groups := gids })

/-! ## 2. `UnixCredentials` -/

/-- `UnixCredentials`: the host ids of the guest user.  `keepCapability` only decides
whether `DAC_OVERRIDE` is put back into the effective capability set. -/
structure UnixCredentials where
  uid : UInt32
  gid : UInt32
  supGids : List UInt32
  keepCapability : Bool

/-- `UnixCredentialsGuard`: what its `Drop` has to undo. -/
structure UnixCredentialsGuard where
  resetUid : Option UInt32
  resetGid : Option UInt32
  dropSupGid : Bool

namespace UnixCredentials

/-- `UnixCredentials::new`. -/
def new (uid gid : UInt32) : UnixCredentials := ⟨uid, gid, [], false⟩

/-- `UnixCredentials::supplementary_gid`. -/
def supplementaryGid (c : UnixCredentials) (supportedExtension : Bool)
    (supGids : List UInt32) : UnixCredentials :=
  { c with supGids := supGids, keepCapability := !supportedExtension }

/-- `change_uid` of `set`: root is never switched to. -/
def changeUid (c : UnixCredentials) (t : ThreadIds) : Bool :=
  c.uid != 0 && c.uid != t.euid.val

/-- `change_gid` of `set`. -/
def changeGid (c : UnixCredentials) (t : ThreadIds) : Bool :=
  c.gid != 0 && c.gid != t.egid.val

/-- **`UnixCredentials::set`**, in the source's order: groups, gid, uid.  The capability
step between the uid and the return is left out: it changes no id, and its failure is
only logged. -/
def set (c : UnixCredentials) (fail : SetFailures) : ThreadM (Option UnixCredentialsGuard) := do
  let t ← get
  if !c.supGids.isEmpty then
    setsupgroup c.supGids fail.setGroups
  if c.changeGid t then
    seteffgid c.gid fail.setEgid
  if c.changeUid t then
    seteffuid c.uid fail.setEuid
  if !c.changeUid t && !c.changeGid t then
    return none
  return some
    { resetUid := if c.changeUid t then some t.euid.val else none
      resetGid := if c.changeGid t then some t.egid.val else none
      dropSupGid := !c.supGids.isEmpty }

end UnixCredentials

/-- **`Drop for UnixCredentialsGuard`**, with restoring calls that succeed. -/
def UnixCredentialsGuard.drop (g : UnixCredentialsGuard) (t : ThreadIds) : ThreadIds :=
  let t := match g.resetUid with
    | some uid => t.withEuid uid
    | none => t
  let t := match g.resetGid with
    | some gid => t.withEgid gid
    | none => t
  if g.dropSupGid then { t with groups := [] } else t

/-! ## 3. One request on a thread -/

/-- The thread's identities once a request with credentials `c` is over: after `set`, and
after the drop of the guard where `set` returned one. -/
def afterRequest (c : UnixCredentials) (fail : SetFailures) (t : ThreadIds) : ThreadIds :=
  match c.set fail t with
  | .ok (some g) t' => g.drop t'
  | .ok none t' => t'
  | .error _ t' => t'

/-- **When `set` and its guard restore the thread.**  Groups that were installed need a
guard, hence an id that changes and no failure after them; a gid that was changed needs
the uid change, if there is one, to succeed. -/
def SetRestores (c : UnixCredentials) (fail : SetFailures) (t : ThreadIds) : Prop :=
  (c.supGids ≠ [] → fail.setGroups = none →
    (c.changeUid t ∨ c.changeGid t) ∧
    (c.changeGid t → fail.setEgid = none) ∧
    (c.changeUid t → fail.setEuid = none)) ∧
  ((c.supGids ≠ [] → fail.setGroups = none) →
    c.changeGid t → fail.setEgid = none → c.gid ≠ invalidId →
    c.changeUid t → fail.setEuid = none)

section WithId

variable (t : ThreadIds) (id : UInt32) (k : KernelId)

@[simp] theorem withEuid_coe : t.withEuid k.val = { t with euid := k } := dif_pos k.property

@[simp] theorem withEgid_coe : t.withEgid k.val = { t with egid := k } := dif_pos k.property

@[simp] theorem withEuid_egid : (t.withEuid id).egid = t.egid := by
  unfold ThreadIds.withEuid; split <;> rfl

@[simp] theorem withEuid_groups : (t.withEuid id).groups = t.groups := by
  unfold ThreadIds.withEuid; split <;> rfl

@[simp] theorem withEgid_euid : (t.withEgid id).euid = t.euid := by
  unfold ThreadIds.withEgid; split <;> rfl

@[simp] theorem withEgid_groups : (t.withEgid id).groups = t.groups := by
  unfold ThreadIds.withEgid; split <;> rfl

end WithId

theorem hostCall_none (f : ThreadIds → ThreadIds) (t : ThreadIds) :
    hostCall none f t = .ok () (f t) := rfl

theorem hostCall_some (e : Errno) (f : ThreadIds → ThreadIds) (t : ThreadIds) :
    hostCall (some e) f t = .error (.os e) t := rfl

/-- The thread once the groups of `c` are installed, where `set` installs them. -/
def UnixCredentials.withGroups (c : UnixCredentials) (t : ThreadIds) : ThreadIds :=
  if c.supGids = [] then t else { t with groups := c.supGids }

/-- The thread once the gid of `c` is set as well, where `set` changes it. -/
def UnixCredentials.withGid (c : UnixCredentials) (t : ThreadIds) : ThreadIds :=
  if c.changeGid t then (c.withGroups t).withEgid c.gid else c.withGroups t

section Request

variable (c : UnixCredentials) (fail : SetFailures) (t : ThreadIds)

/-- What a request leaves behind, by the call at which `set` stops. -/
theorem afterRequest_eq :
    afterRequest c fail t =
      if c.supGids ≠ [] ∧ fail.setGroups ≠ none then t
      else if c.changeGid t ∧ fail.setEgid ≠ none then c.withGroups t
      else if c.changeUid t ∧ fail.setEuid ≠ none then c.withGid t
      else if c.changeUid t ∨ c.changeGid t then
        if c.supGids = [] then t else { t with groups := [] }
      else c.withGroups t := by
  obtain ⟨uid, gid, supGids, keep⟩ := c
  obtain ⟨failGroups, failEgid, failEuid⟩ := fail
  -- one case for every outcome of every test and call that `set` makes
  cases supGids <;> cases failGroups <;> cases failEgid <;> cases failEuid <;>
    cases hu : UnixCredentials.changeUid _ t <;> cases hg : UnixCredentials.changeGid _ t <;>
    simp [afterRequest, UnixCredentials.set, setsupgroup, seteffgid, seteffuid, bind,
      EStateM.bind, get, getThe, MonadStateOf.get, EStateM.get, pure, EStateM.pure,
      hostCall_none, hostCall_some, hu, hg, UnixCredentials.withGroups,
      UnixCredentials.withGid, UnixCredentialsGuard.drop]

variable {c fail t}

theorem withGroups_eq_self_iff (ht : t.groups = []) : c.withGroups t = t ↔ c.supGids = [] := by
  unfold UnixCredentials.withGroups
  split
  · simp [*]
  · rename_i hne
    simp [ThreadIds.ext_iff, ht, hne]

theorem withEgid_eq_self_iff {id : UInt32} (hid : id ≠ t.egid.val) :
    t.withEgid id = t ↔ id = invalidId := by
  unfold ThreadIds.withEgid
  split
  · rename_i hv
    simp only [ThreadIds.ext_iff, Subtype.ext_iff, and_true, true_and, hv, iff_false]
    exact hid
  · rename_i hv
    simpa using hv

theorem withGid_eq_self_iff (ht : t.groups = []) :
    c.withGid t = t ↔ c.supGids = [] ∧ (c.changeGid t → c.gid = invalidId) := by
  unfold UnixCredentials.withGid
  split
  · rename_i hg
    have hid : c.gid ≠ t.egid.val := by
      simp only [UnixCredentials.changeGid, Bool.and_eq_true, bne_iff_ne] at hg
      exact hg.2
    by_cases hs : c.supGids = []
    · have hw : c.withGroups t = t := (withGroups_eq_self_iff ht).mpr hs
      simp [hw, withEgid_eq_self_iff hid, hs, hg]
    · -- the installed groups show through the gid change
      have hne : ((c.withGroups t).withEgid c.gid).groups ≠ t.groups := by
        simp [UnixCredentials.withGroups, hs, ht]
      simp only [hs, false_and, iff_false]
      intro h
      exact hne (congrArg ThreadIds.groups h)
  · rename_i hg
    simp [withGroups_eq_self_iff ht, hg]

/-- **One request restores the thread exactly when `SetRestores` holds.** -/
theorem afterRequest_eq_self_iff (ht : t.groups = []) :
    afterRequest c fail t = t ↔ SetRestores c fail t := by
  have hclear : ({ t with groups := [] } : ThreadIds) = t := by rw [← ht]
  have hGroups := withGroups_eq_self_iff (c := c) ht
  have hGid := withGid_eq_self_iff (c := c) ht
  unfold SetRestores
  rw [afterRequest_eq]
  -- follow `set` to the call at which it stops
  by_cases hf : c.supGids ≠ [] ∧ fail.setGroups ≠ none
  · rw [if_pos hf]
    grind
  rw [if_neg hf]
  by_cases hg : c.changeGid t ∧ fail.setEgid ≠ none
  · rw [if_pos hg]
    grind
  rw [if_neg hg]
  by_cases hu : c.changeUid t ∧ fail.setEuid ≠ none
  · rw [if_pos hu]
    grind
  rw [if_neg hu, hclear]
  grind

end Request

/-! ## 4. The requests of one worker thread -/

/-- The thread's identities after it has served the requests `rs` one after another. -/
def afterRequests : List (UnixCredentials × SetFailures) → ThreadIds → ThreadIds
  | [], t => t
  | (c, fail) :: rs, t => afterRequests rs (afterRequest c fail t)

theorem afterRequests_eq_self {t : ThreadIds} (ht : t.groups = []) :
    ∀ rs : List (UnixCredentials × SetFailures),
      (∀ r ∈ rs, SetRestores r.1 r.2 t) → afterRequests rs t = t
  | [], _ => rfl
  | (c, fail) :: rs, h => by
    have hhead : afterRequest c fail t = t :=
      (afterRequest_eq_self_iff ht).mpr (h (c, fail) (List.mem_cons_self ..))
    rw [afterRequests, hhead]
    exact afterRequests_eq_self ht rs fun r hr => h r (List.mem_cons_of_mem _ hr)

/-- **Credentials are restored exactly when `SetRestores` holds**, and a thread all of
whose requests meet it serves each of them with the identities it started with. -/
theorem credentials_restored_iff (t : ThreadIds) (ht : t.groups = []) :
    (∀ c fail, afterRequest c fail t = t ↔ SetRestores c fail t) ∧
    ∀ rs : List (UnixCredentials × SetFailures), (∀ r ∈ rs, SetRestores r.1 r.2 t) →
      ∀ k, afterRequests (rs.take k) t = t := by
  refine ⟨fun c fail => afterRequest_eq_self_iff ht, fun rs h k => ?_⟩
  exact afterRequests_eq_self ht (rs.take k) fun r hr => h r (List.mem_of_mem_take hr)

/-- A daemon thread as it is started: root, without supplementary groups. -/
def rootThread : ThreadIds := ⟨⟨0, by decide⟩, ⟨0, by decide⟩, []⟩

/-- A request of user 1000 with one supplementary group is undone completely. -/
theorem credentials_restored_user :
    SetRestores ⟨1000, 1000, [100], false⟩ ⟨none, none, none⟩ rootThread ∧
    afterRequest ⟨1000, 1000, [100], false⟩ ⟨none, none, none⟩ rootThread = rootThread :=
  have h : SetRestores ⟨1000, 1000, [100], false⟩ ⟨none, none, none⟩ rootThread := by
    simp [SetRestores]; decide
  ⟨h, ((credentials_restored_iff rootThread rfl).1 _ _).mpr h⟩

/-- The guest's root with one supplementary group: every call succeeds, `set` returns
`Ok(None)`, and the group stays on the thread. -/
theorem credentials_leaked_root :
    rootThread.groups = [] ∧
    UnixCredentials.set ⟨0, 0, [100], false⟩ ⟨none, none, none⟩ rootThread =
      .ok none { rootThread with groups := [100] } ∧
    afterRequest ⟨0, 0, [100], false⟩ ⟨none, none, none⟩ rootThread ≠ rootThread :=
  ⟨rfl, rfl, by decide⟩

end Virtiofsd
