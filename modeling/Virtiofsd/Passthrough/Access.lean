/-
  # Permission checks (`access`)

  POSIX takes ONE class of permission bits for a caller: those of the owner if the caller is the
  owner, else those of the group if it is in the group, else those of the others.  `access` lets
  a caller through if ANY class that it is in has the bit.  So a caller that is refused by its own
  class, and would be let through by a wider one, is let through.

  The two agree on all access masks exactly if no wider class of the caller has a bit that its own
  class lacks (`access_posix_iff`).  Root is treated as POSIX says.
-/
import Virtiofsd.Passthrough.Ledger
import Mathlib.Data.Nat.Bitwise

namespace Virtiofsd

open Lib

/-! ## 1. The class rule -/

inductive Permission where
  | read
  | write
  | execute
  deriving DecidableEq

namespace Permission

/-- The position of its bit in a class, and in an access mask. -/
def bit : Permission → Nat
  | read => 2
  | write => 1
  | execute => 0

/-- Its bit in an access mask. -/
def code : Permission → Nat
  | read => PassthroughFs.R_OK
  | write => PassthroughFs.W_OK
  | execute => PassthroughFs.X_OK

theorem code_eq : ∀ p : Permission, p.code = 2 ^ p.bit
  | read | write | execute => rfl

/-- The permission is asked for. -/
def Requested (p : Permission) (mask : UInt32) : Prop := mask.toNat.testBit p.bit = true

instance (p : Permission) (mask : UInt32) : Decidable (p.Requested mask) :=
  inferInstanceAs (Decidable (_ = _))

end Permission

inductive FileClass where
  | owner
  | group
  | other
  deriving DecidableEq

/-- Where its three bits are in a mode. -/
def FileClass.shift : FileClass → Nat
  | owner => 6
  | group => 3
  | other => 0

/-- What is looked at of a file; the IDs are those of the guest. -/
structure Permissions where
  owner : UInt32
  group : UInt32
  mode : Nat

namespace Permissions

variable (f : Permissions) (ctx : Context)

def allows (c : FileClass) (p : Permission) : Bool := f.mode.testBit (c.shift + p.bit)

/-- The caller is one of those that the bits of the class are for. -/
def InClass : FileClass → Prop
  | .owner => f.owner = ctx.uid
  | .group => f.group = ctx.gid
  | .other => True

/-- **The class of a caller**: the first one that it is in. -/
def classOf : FileClass :=
  if f.owner = ctx.uid then .owner else if f.group = ctx.gid then .group else .other

/-- **What POSIX grants.** -/
def Grants (p : Permission) : Prop :=
  if ctx.uid = 0 then p = .execute → ∃ c, f.allows c .execute = true
  else f.allows (f.classOf ctx) p = true

/-- What `access` lets through. -/
def Passes (p : Permission) : Prop :=
  (ctx.uid = 0 ∧ (p = .execute → ∃ c, f.allows c .execute = true)) ∨
    ∃ c, f.InClass ctx c ∧ f.allows c p = true

/-- **No wider class gives more**: what any class of the caller allows, its own class does. -/
def Layered : Prop :=
  ctx.uid = 0 ∨ ∀ c p, f.InClass ctx c → f.allows c p = true → f.allows (f.classOf ctx) p = true

variable {f ctx} {p : Permission}

theorem classOf_inClass : f.InClass ctx (f.classOf ctx) := by
  unfold classOf
  split
  · assumption
  · split
    · assumption
    · trivial

theorem Grants.passes (h : f.Grants ctx p) : f.Passes ctx p := by
  unfold Grants at h
  split at h
  · next hroot => exact .inl ⟨hroot, h⟩
  · exact .inr ⟨_, classOf_inClass, h⟩

/-- For root, one class is as good as another. -/
theorem Passes.grants_of_root (hroot : ctx.uid = 0) (h : f.Passes ctx p) : f.Grants ctx p := by
  unfold Grants
  rw [if_pos hroot]
  rcases h with ⟨-, h⟩ | ⟨c, -, hc⟩
  · exact h
  · rintro rfl
    exact ⟨c, hc⟩

theorem grants_eq_passes_iff : (∀ p, f.Passes ctx p → f.Grants ctx p) ↔ f.Layered ctx := by
  constructor
  · intro h
    by_cases hroot : ctx.uid = 0
    · exact .inl hroot
    · refine .inr fun c p hclass hallows => ?_
      have hgrants := h p (.inr ⟨c, hclass, hallows⟩)
      rwa [Grants, if_neg hroot] at hgrants
  · rintro (hroot | hlayered) p hpasses
    · exact hpasses.grants_of_root hroot
    · by_cases hroot : ctx.uid = 0
      · exact hpasses.grants_of_root hroot
      · rcases hpasses with ⟨hroot', -⟩ | ⟨c, hclass, hallows⟩
        · exact absurd hroot' hroot
        · rw [Grants, if_neg hroot]
          exact hlayered c p hclass hallows

end Permissions

/-! ## 2. The check of `access` -/

namespace PassthroughFs

theorem and_two_pow_eq_zero {n i : Nat} : n &&& 2 ^ i = 0 ↔ n.testBit i = false := by
  rw [Nat.and_two_pow]
  cases n.testBit i <;> simp

variable {f : Permissions} {ctx : Context} {mask : UInt32} {p : Permission}

theorem requested_iff :
    (mask.toNat &&& (R_OK ||| W_OK ||| X_OK)) &&& p.code ≠ 0 ↔ p.Requested mask := by
  have hbit : (R_OK ||| W_OK ||| X_OK).testBit p.bit = true := by cases p <;> rfl
  rw [p.code_eq, ne_eq, and_two_pow_eq_zero, Nat.testBit_and, hbit, Bool.and_true,
    Bool.not_eq_false]
  rfl

/-- A class, as `access` tests it. -/
theorem allows_eq (c : FileClass) : f.allows c p = !(f.mode &&& (p.code * 2 ^ c.shift) == 0) := by
  rw [Bool.eq_iff_iff, Bool.not_eq_true', beq_eq_false_iff_ne, ne_eq, p.code_eq, ← Nat.pow_add,
    and_two_pow_eq_zero, Bool.not_eq_false, Nat.add_comm]
  rfl

theorem exists_class_iff : (∃ c, f.InClass ctx c ∧ f.allows c p = true) ↔
    (f.owner = ctx.uid ∧ f.allows .owner p = true) ∨
      (f.group = ctx.gid ∧ f.allows .group p = true) ∨ f.allows .other p = true := by
  constructor
  · rintro ⟨c, hclass, hallows⟩
    cases c with
    | owner => exact .inl ⟨hclass, hallows⟩
    | group => exact .inr (.inl ⟨hclass, hallows⟩)
    | other => exact .inr (.inr hallows)
  · rintro (⟨hclass, hallows⟩ | ⟨hclass, hallows⟩ | hallows)
    · exact ⟨.owner, hclass, hallows⟩
    · exact ⟨.group, hclass, hallows⟩
    · exact ⟨.other, trivial, hallows⟩

/-- **`access` asks all classes of the caller.** -/
theorem accessRefused_iff {exempt : Bool} :
    accessRefused ctx f.owner f.group f.mode p.code exempt = false ↔
      exempt = true ∨ ∃ c, f.InClass ctx c ∧ f.allows c p = true := by
  have howner : (f.mode &&& (p.code * 0o100) == 0) = !f.allows .owner p := by
    rw [allows_eq, Bool.not_not]
    rfl
  have hgroup : (f.mode &&& (p.code * 0o10) == 0) = !f.allows .group p := by
    rw [allows_eq, Bool.not_not]
    rfl
  have hother : (f.mode &&& p.code == 0) = !f.allows .other p := by
    rw [allows_eq, Bool.not_not, FileClass.shift, Nat.pow_zero, Nat.mul_one]
  rw [exists_class_iff, accessRefused, howner, hgroup, hother]
  by_cases huid : f.owner = ctx.uid <;> by_cases hgid : f.group = ctx.gid <;>
    cases exempt <;> cases f.allows .owner p <;> cases f.allows .group p <;> simp [huid, hgid]

/-- Root needs some execute bit. -/
theorem executable_iff :
    (f.mode &&& 0o111 != 0) = true ↔ ∃ c, f.allows c .execute = true := by
  have hbits : 0o111 = 2 ^ 0 ||| 2 ^ 3 ||| 2 ^ 6 := rfl
  rw [bne_iff_ne, ne_eq, hbits, Nat.and_or_distrib_left, Nat.and_or_distrib_left,
    Nat.or_eq_zero_iff, Nat.or_eq_zero_iff, and_two_pow_eq_zero, and_two_pow_eq_zero,
    and_two_pow_eq_zero]
  constructor
  · intro h
    by_contra hnone
    have hclass : ∀ c, f.allows c .execute = false := fun c =>
      Bool.eq_false_iff.mpr fun hc => hnone ⟨c, hc⟩
    exact h ⟨⟨hclass .other, hclass .group⟩, hclass .owner⟩
  · rintro ⟨c, hc⟩ ⟨⟨hother, hgroup⟩, howner⟩
    cases c with
    | owner => exact absurd hc (Bool.eq_false_iff.mp howner)
    | group => exact absurd hc (Bool.eq_false_iff.mp hgroup)
    | other => exact absurd hc (Bool.eq_false_iff.mp hother)

section

variable (cfg : Config) (ctx : Context) (inode : Inode) (mask : UInt32)

/-- The attributes that `access` looks at. -/
def attributes : NeutralM StatExt := do
  let data ← getInode inode
  let fd ← data.data.getFile
  statx fd none

/-- What follows. -/
def checkAccess (st : StatExt) : NeutralM Unit := do
  let mode := mask.toNat &&& (R_OK ||| W_OK ||| X_OK)
  if mode = 0 then return ()
  let uid ← Prog.ofExcept (cfg.uidMap.mapHost st.st.uid)
  let gid ← Prog.ofExcept (cfg.gidMap.mapHost st.st.gid)
  let root := ctx.uid == 0
  if mode &&& R_OK ≠ 0 ∧ accessRefused ctx uid gid st.st.mode R_OK root then .err (.os EACCES)
  if mode &&& W_OK ≠ 0 ∧ accessRefused ctx uid gid st.st.mode W_OK root then .err (.os EACCES)
  if mode &&& X_OK ≠ 0 ∧
      accessRefused ctx uid gid st.st.mode X_OK (root && st.st.mode &&& 0o111 != 0) then
    .err (.os EACCES)

theorem access_eq : access cfg ctx inode mask =
    (attributes inode).bind (checkAccess cfg ctx mask) := by
  unfold access attributes
  simp only [Prog.bind_eq, Prog.bind_assoc]
  rfl

variable {S : Type} (h : (a : NeutralAct) → S → a.Ans × S) (s : S) {st : StatExt}
  {owner group : UInt32}

/-- The permission is asked for and refused. -/
def Denied (st : StatExt) (owner group : UInt32) (p : Permission) (exempt : Bool) : Prop :=
  (mask.toNat &&& (R_OK ||| W_OK ||| X_OK)) &&& p.code ≠ 0 ∧
    accessRefused ctx owner group st.st.mode p.code exempt = true

theorem checkAccess_run (huid : cfg.uidMap.mapHost st.st.uid = .ok owner)
    (hgid : cfg.gidMap.mapHost st.st.gid = .ok group) :
    ((checkAccess cfg ctx mask st).run h s).1 = .ok () ↔
      ¬ Denied ctx mask st owner group .read (ctx.uid == 0) ∧
      ¬ Denied ctx mask st owner group .write (ctx.uid == 0) ∧
      ¬ Denied ctx mask st owner group .execute (ctx.uid == 0 && st.st.mode &&& 0o111 != 0) := by
  unfold checkAccess
  rw [huid, hgid]
  by_cases hnone : mask.toNat &&& (R_OK ||| W_OK ||| X_OK) = 0
  · simp [hnone, Denied]
  · simp only [if_neg hnone, Prog.ofExcept, Prog.bind_eq, Prog.bind_ret, Prog.bind_err]
    split_ifs with hread hwrite hexecute
    · exact iff_of_false (fun heq => nomatch heq) fun hnot => hnot.1 hread
    · exact iff_of_false (fun heq => nomatch heq) fun hnot => hnot.2.1 hwrite
    · exact iff_of_false (fun heq => nomatch heq) fun hnot => hnot.2.2 hexecute
    · exact iff_of_true rfl ⟨hread, hwrite, hexecute⟩

variable {ctx mask}

theorem not_denied_iff {exempt : Bool} :
    ¬ Denied ctx mask st owner group p exempt ↔ (p.Requested mask →
      exempt = true ∨ ∃ c, Permissions.InClass ⟨owner, group, st.st.mode⟩ ctx c ∧
        Permissions.allows ⟨owner, group, st.st.mode⟩ c p = true) := by
  rw [← accessRefused_iff, ← requested_iff, Denied, not_and, Bool.not_eq_true]

theorem access_run_iff {s' : S} (hst : (attributes inode).run h s = (.ok st, s'))
    (huid : cfg.uidMap.mapHost st.st.uid = .ok owner)
    (hgid : cfg.gidMap.mapHost st.st.gid = .ok group) :
    ((access cfg ctx inode mask).run h s).1 = .ok () ↔
      ∀ p, p.Requested mask → Permissions.Passes ⟨owner, group, st.st.mode⟩ ctx p := by
  have hsome := executable_iff (f := ⟨owner, group, st.st.mode⟩)
  rw [access_eq, Prog.run_bind_of_ok h hst, checkAccess_run cfg ctx mask h s' huid hgid,
    not_denied_iff, not_denied_iff, not_denied_iff, Bool.and_eq_true, hsome, beq_iff_eq]
  constructor
  · rintro ⟨hread, hwrite, hexecute⟩ p hp
    cases p with
    | read => exact (hread hp).imp_left fun hroot => ⟨hroot, nofun⟩
    | write => exact (hwrite hp).imp_left fun hroot => ⟨hroot, nofun⟩
    | execute => exact (hexecute hp).imp_left fun hroot => ⟨hroot.1, fun _ => hroot.2⟩
  · intro hpasses
    exact ⟨fun hp => (hpasses .read hp).imp_left And.left,
      fun hp => (hpasses .write hp).imp_left And.left,
      fun hp => (hpasses .execute hp).imp_left fun hroot => ⟨hroot.1, hroot.2 rfl⟩⟩

/-- A mask that asks for one permission. -/
theorem requested_code {q : Permission} :
    q.Requested (UInt32.ofNat p.code) ↔ q = p := by
  cases p <;> cases q <;> decide

/-- **`access` agrees with POSIX, on all masks, exactly if no wider class of the caller gives
more than its own.** -/
theorem access_posix_iff (cfg : Config) (ctx : Context) (inode : Inode)
    (h : (a : NeutralAct) → S → a.Ans × S) {s s' : S} {st : StatExt} {owner group : UInt32}
    (hst : (attributes inode).run h s = (.ok st, s'))
    (huid : cfg.uidMap.mapHost st.st.uid = .ok owner)
    (hgid : cfg.gidMap.mapHost st.st.gid = .ok group) :
    (∀ mask, ((access cfg ctx inode mask).run h s).1 = .ok () ↔
      ∀ p : Permission, p.Requested mask → Permissions.Grants ⟨owner, group, st.st.mode⟩ ctx p) ↔
    Permissions.Layered ⟨owner, group, st.st.mode⟩ ctx := by
  rw [← Permissions.grants_eq_passes_iff]
  constructor
  · intro hall p hpasses
    refine (hall (UInt32.ofNat p.code)).mp ?_ p (requested_code.mpr rfl)
    refine (access_run_iff cfg inode h s hst huid hgid).mpr fun q hq => ?_
    rw [requested_code.mp hq]
    exact hpasses
  · intro hgrants mask
    rw [access_run_iff cfg inode h s hst huid hgid]
    exact ⟨fun hpasses p hp => hgrants p (hpasses p hp),
      fun hgranted p hp => (hgranted p hp).passes⟩

end

/-- A file of the user 1000, for everybody else. -/
def othersStat : StatExt := ⟨{ regStat with mode := 0o100077, uid := 1000, gid := 1000 }, 1⟩

/-- A host with such files only. -/
def othersHost (k : Nat) : Host
  | .statx .. => .ok othersStat
  | c => obligingHost k c

/-- The daemon after INIT on that host. -/
def othersWorld : World := { (initLedger 2).world with oracle := othersHost }

/-- **An owner that is let through by the bits of the others.** -/
theorem access_passes_refused_owner :
    ((access Config.default ⟨1000, 2000, 0⟩ ROOT_ID 4).run (fun a => World.perform (.neutral a))
        othersWorld).1 = .ok () ∧
      ¬ Permissions.Grants ⟨1000, 1000, 0o100077⟩ ⟨1000, 2000, 0⟩ .read := by
  refine ⟨rfl, ?_⟩
  rw [Permissions.Grants, if_neg (by decide)]
  decide

/-- A caller that is neither the owner nor in the group. -/
theorem access_posix_other :
    ((attributes ROOT_ID).run (fun a => World.perform (.neutral a)) othersWorld).1 =
      .ok othersStat ∧
    ∀ mask, ((access Config.default ⟨2000, 2000, 0⟩ ROOT_ID mask).run
        (fun a => World.perform (.neutral a)) othersWorld).1 = .ok () ↔
      ∀ p : Permission, p.Requested mask →
        Permissions.Grants ⟨1000, 1000, 0o100077⟩ ⟨2000, 2000, 0⟩ p := by
  obtain ⟨w, hst⟩ : ∃ w, (attributes ROOT_ID).run (fun a => World.perform (.neutral a))
      othersWorld = (.ok othersStat, w) := ⟨_, rfl⟩
  refine ⟨rfl, (access_posix_iff Config.default ⟨2000, 2000, 0⟩ ROOT_ID _ hst rfl rfl).mpr
    (.inr fun c p hclass hallows => ?_)⟩
  cases c with
  | owner | group => exact absurd hclass (show ¬ (1000 : UInt32) = 2000 by decide)
  | other => exact hallows

end PassthroughFs

end Virtiofsd
