/-
  # The references the preparation of a migration takes and gives back

  `Accounts` for the programs of `Migration/Prepare.lean`.  The walk through the shared
  directory is the one with a stack of references: it can be cancelled at every entry, and
  none of its failures ends it, so it is shown to `Settle` its references.  `discover`
  BORROWS the reference to the directory it looks into; that is what makes the `clone` in it
  safe.
-/
import Virtiofsd.Migration.Prepare
import Virtiofsd.Passthrough.References

namespace Virtiofsd

open Lib StrongInodeReference

variable {α β : Type} {u v : Multiset Ref} {g : α → Multiset Ref}

/-- A program that borrows references. -/
abbrev AccountsBeside (kept : Multiset Ref) (p : FsM α) (use : Multiset Ref)
    (give : α → Multiset Ref) : Prop :=
  Borrows refTokens PanicSite.Local kept p use give

theorem neutral_attempt_settles (p : NeutralM α) :
    AccountsSurely (liftM p.attempt) 0 (fun _ => 0) := by
  have hp : AccountsBeside 0 (liftM p : FsM α) 0 (fun _ => 0) :=
    Borrows.of_spends (neutral_accounts p)
  have h := hp.attempt_bind (v := 0) (k := Prog.ret) (g := fun _ => 0)
    (fun _ => Settles.ret (m := fun _ => 0)) (fun _ => Settles.ret (m := fun _ => 0))
  rw [Prog.bind_ret_right] at h
  show AccountsSurely (Prog.mapAct _ _ _ (Prog.attempt p)) _ _
  rw [Prog.mapAct_attempt]
  exact h

/-! ## 1. Walking over the inode store -/

namespace ProcPaths

theorem recheck_accounts (r : InodeRef) (info : InodeMigrationInfo) :
    Accounts (recheck r info) 0 (fun _ => 0) := by
  refine neutral_bind fun present => ?_
  cases present with
  | ok _ => exact Spends.done
  | error e => exact (setInfo_settles r none).spends.bind fun _ => Spends.done

theorem shouldUpdateInode_accounts (mode : Mode) (r : InodeRef) :
    Accounts (shouldUpdateInode mode r) 0 (fun _ => 0) := by
  have hend : ∀ update : Bool, Accounts ((liftM (query (.unlockInfo r)) : FsM Unit).bind
      fun _ => .ret update) 0 (fun _ => 0) :=
    fun update => query_bind fun _ => Spends.done
  refine query_bind fun _ => ?_
  refine query_bind fun info => ?_
  cases mode <;> cases info
  case confirmPaths.some info => exact (recheck_accounts r info).bind hend
  case implicitPathCheck.some info => exact (recheck_accounts r info).bind hend
  all_goals exact hend _

theorem walk_accounts (cfg : Config) (mode : Mode) (sharedDirPath : Name) :
    ∀ (fuel : Nat) (last : Option Inode),
      Accounts (walk cfg mode sharedDirPath fuel last) 0 (fun _ => 0)
  | 0, _ => Spends.done
  | fuel + 1, last => by
    refine query_bind fun r => ?_
    cases r with
    | none => exact Spends.done
    | some r =>
      have hnext := walk_accounts cfg mode sharedDirPath fuel (some r.data.inode)
      refine neutral_bind fun cancelled => ?_
      cases cancelled with
      | true => exact Spends.done
      | false =>
        refine (shouldUpdateInode_accounts mode r).bind fun update => ?_
        cases update with
        | false => exact hnext
        | true =>
          refine (setPathMigrationInfoFromProcSelfFd_accounts cfg r.data sharedDirPath).bind
            fun result => ?_
          split
          · exact Spends.done
          · exact hnext

theorem run_accounts (cfg : Config) (mode : Mode) (fuel : Nat) :
    Accounts (run cfg mode fuel) 0 (fun _ => 0) := by
  refine query_bind fun root => ?_
  cases root with
  | none =>
    refine query_bind fun isEmpty => ?_
    cases isEmpty <;> exact Spends.done
  | some root =>
    refine neutral_bind fun path => ?_
    cases path with
    | error e => exact Spends.done
    | ok path => exact walk_accounts cfg mode path fuel none

theorem construct_accounts (cfg : Config) (fuel : Nat) :
    Accounts (construct cfg fuel) 0 (fun _ => 0) := by
  refine (run_accounts cfg .constructor fuel).bind fun result => ?_
  rcases result with (_ | _) | _ <;> exact Spends.done

theorem confirmPaths_accounts (cfg : Config) (fuel : Nat) :
    Accounts (confirmPaths cfg fuel) 0 (fun _ => 0) := by
  refine (run_accounts cfg .confirmPaths fuel).bind fun result => ?_
  cases result with
  | ok _ => exact Spends.done
  | error e => exact Spends.err

theorem checkPaths_accounts (cfg : Config) (fuel : Nat) :
    Accounts (checkPaths cfg fuel) 0 (fun _ => 0) :=
  (run_accounts cfg .implicitPathCheck fuel).bind fun _ => Spends.done

end ProcPaths

/-! ## 2. Walking through the shared directory -/

namespace FindPaths

/-- The clone becomes part of the path; the original stays with the caller. -/
theorem newPath_accounts (parentRef : InodeRef) (name : Name)
    (handle : NeutralM (Option SerializableFileHandle)) :
    AccountsBeside {.strong parentRef} (newPath parentRef name handle) 0
      (fun info => infoTokens (some info)) := by
  refine (Borrows.of_settles (clone_settles parentRef)).bind fun parent => ?_
  refine Borrows.of_spends (Spends.of_eq (((neutral_accounts handle).onErr
    (drop_settles parent).spends).bind fun fileHandle => ?_) (zero_add _))
  exact (Spends.ret (m := fun info => infoTokens (some info))).of_eq (zero_add _).symm

theorem discoverKnown_accounts (cfg : Config) (parentRef : InodeRef) (name : Name) (pathFd : Fd)
    (st : StatExt) (handle : Option FileHandle) (inode : InodeRef) :
    AccountsBeside {.strong parentRef}
      (discoverKnown cfg parentRef name pathFd st handle inode) {.strong inode} optTokens := by
  refine Borrows.of_eq (((newPath_accounts parentRef name _).onErr
    (drop_settles inode).spends).bind fun info => Borrows.of_spends ?_) (zero_add _)
  refine (setInfo_settles inode (some info)).bind_spends fun _ => ?_
  rw [zero_add]
  show Accounts (if _ then _ else _) _ _
  split
  · exact Spends.ret (m := optTokens)
  · exact (drop_settles inode).spends.bind fun _ => Spends.ret (m := optTokens)

theorem discoverDirectory_accounts (cfg : Config) (parentRef : InodeRef) (name : Name)
    (pathFd : Fd) (st : StatExt) (handle : Option FileHandle) :
    AccountsBeside {.strong parentRef}
      (discoverDirectory cfg parentRef name pathFd st handle) 0 (fun r => {.strong r}) := by
  refine (Borrows.of_spends (neutral_accounts _)).bind fun f => ?_
  refine Borrows.of_eq (((newPath_accounts parentRef name _).onErr
    (dropFile_settles f).spends).bind fun info => Borrows.of_spends ?_) (zero_add _)
  rw [add_zero]
  exact query_bind fun inode => getOrInsert_accounts _ (some info)

/-- **`discover` borrows the directory**, and returns a reference to a directory to visit. -/
theorem discover_accounts (cfg : Config) (parentRef : InodeRef) (dirfd : Fd) (name : Name) :
    AccountsBeside {.strong parentRef} (discover cfg parentRef dirfd name) 0 optTokens := by
  unfold discover
  split
  · exact Borrows.of_spends Spends.err
  · split
    · exact Borrows.of_spends (Spends.ret (m := optTokens))
    · refine (Borrows.of_spends (neutral_accounts _)).bind fun found => ?_
      obtain ⟨pathFd, st, handle⟩ := found
      refine (Borrows.of_spends (claimInode_accounts handle st.ids)).bind fun inode => ?_
      cases inode with
      | some inode => exact discoverKnown_accounts cfg parentRef name pathFd st handle inode
      | none =>
        show AccountsBeside _ (if _ then _ else _) _ _
        split
        · exact (discoverDirectory_accounts cfg parentRef name pathFd st handle).bind fun r =>
            Borrows.of_spends (Spends.ret (m := optTokens) (a := some r))
        · exact Borrows.of_spends (Spends.ret (m := optTokens))

/-- The references on the stack. -/
def strongs (stack : List InodeRef) : Multiset Ref := Multiset.map .strong stack

@[simp] theorem strongs_cons (r : InodeRef) (stack : List InodeRef) :
    strongs (r :: stack) = {.strong r} + strongs stack := by
  simp [strongs, ← Multiset.cons_coe]

@[simp] theorem strongs_reverse (stack : List InodeRef) :
    strongs stack.reverse = strongs stack := by
  rw [strongs, Multiset.coe_reverse, strongs]

theorem dropAll_settles : ∀ stack : List InodeRef,
    AccountsSurely (dropAll stack) (strongs stack) (fun _ => 0)
  | [] => Settles.ret (m := fun _ => 0)
  | r :: stack => by
    rw [strongs_cons]
    refine (drop_settles r).bind fun _ => ?_
    rw [zero_add]
    exact dropAll_settles stack

/-- The directory that is read, and the stack. -/
abbrev walkTokens (dir : InodeRef) (r : Bool × List InodeRef) : Multiset Ref :=
  {.strong dir} + strongs r.2

theorem discoverEntries_settles (cfg : Config) (dir : InodeRef) (dirfd : Fd) :
    ∀ (entries : List LinuxDirent) (stack : List InodeRef),
      AccountsSurely (discoverEntries cfg dir dirfd entries stack)
        ({.strong dir} + strongs stack) (walkTokens dir)
  | [], stack => Settles.ret (m := walkTokens dir) (a := (false, stack))
  | entry :: entries, stack => by
    have hcancel : AccountsSurely (liftM (host .cancelled)) 0 (fun _ => 0) := Settles.perform
    refine Settles.of_eq (hcancel.bind fun cancelled => ?_) (zero_add _)
    rw [zero_add]
    cases cancelled with
    | true => exact Settles.ret (m := walkTokens dir) (a := (true, stack))
    | false =>
      have hnext := discoverEntries_settles cfg dir dirfd entries
      refine Settles.of_eq ((discover_accounts cfg dir dirfd entry.name).attempt_bind
        (fun r => ?_) (fun e => hnext stack)) (zero_add _)
      cases r with
      | none =>
        refine (hnext stack).of_eq ?_
        exact (zero_add _).symm
      | some inode =>
        refine (hnext (inode :: stack)).of_eq ?_
        rw [strongs_cons]
        exact add_left_comm _ _ _

theorem readEntries_settles (cfg : Config) (dir : InodeRef) (dirfd : Fd) :
    ∀ (fuel : Nat) (stack : List InodeRef),
      AccountsSurely (readEntries cfg dir dirfd fuel stack)
        ({.strong dir} + strongs stack) (walkTokens dir)
  | 0, stack => Settles.ret (m := walkTokens dir) (a := (true, stack))
  | fuel + 1, stack => by
    have hread : AccountsSurely (liftM (host (.getdents dirfd none 1024))) 0 (fun _ => 0) :=
      Settles.perform
    refine Settles.of_eq (hread.bind fun read => ?_) (zero_add _)
    rw [zero_add]
    rcases read with _ | _ | ⟨entry, entries⟩
    · exact Settles.ret (m := walkTokens dir) (a := (false, stack))
    · exact Settles.ret (m := walkTokens dir) (a := (false, stack))
    · refine Settles.of_eq ((discoverEntries_settles cfg dir dirfd _ stack).bind (v := 0)
        fun r => ?_) (add_zero _)
      rw [add_zero]
      obtain ⟨cancelled, stack'⟩ := r
      cases cancelled with
      | true => exact Settles.ret (m := walkTokens dir) (a := (true, stack'))
      | false => exact readEntries_settles cfg dir dirfd fuel stack'

theorem recurseFrom_settles (cfg : Config) : ∀ (fuel : Nat) (stack : List InodeRef),
    AccountsSurely (recurseFrom cfg fuel stack) (strongs stack) (fun _ => 0)
  | 0, stack => (dropAll_settles stack.reverse).of_eq (strongs_reverse stack)
  | _ + 1, [] => Settles.ret (m := fun _ => 0)
  | fuel + 1, dir :: stack => by
    have hopen := neutral_attempt_settles
      (dir.data.openFile (O_RDONLY ||| O_NOFOLLOW ||| O_CLOEXEC))
    rw [strongs_cons]
    refine Settles.of_eq (hopen.bind fun opened => ?_) (zero_add _)
    rw [zero_add]
    rcases opened with e | dirfd
    · refine (drop_settles dir).bind fun _ => ?_
      rw [zero_add]
      exact recurseFrom_settles cfg fuel stack
    · refine Settles.of_eq ((readEntries_settles cfg dir dirfd fuel stack).bind (v := 0)
        fun r => ?_) (add_zero _)
      obtain ⟨cancelled, stack'⟩ := r
      rw [add_zero]
      refine (drop_settles dir).bind fun _ => ?_
      rw [zero_add]
      cases cancelled with
      | true => exact (dropAll_settles stack'.reverse).of_eq (strongs_reverse stack')
      | false => exact recurseFrom_settles cfg fuel stack'

theorem construct_accounts (cfg : Config) (fuel : Nat) :
    Accounts (construct cfg fuel) 0 (fun _ => 0) := by
  refine Spends.of_eq ((new_accounts ROOT_ID).attempt_bind (v := 0) (fun root => ?_)
    (fun e => Spends.done)) (add_zero _)
  refine (recurseFrom_settles cfg fuel [root]).spends.of_eq ?_
  rw [strongs_cons]
  rfl

end FindPaths

/-! ## 3. The whole preparation -/

theorem FileHandles.collect_accounts (cfg : Config) : ∀ (fuel : Nat) (last : Option Inode),
    Accounts (FileHandles.collect cfg fuel last) 0 (fun _ => 0)
  | 0, _ => Spends.done
  | fuel + 1, last => by
    refine query_bind fun r => ?_
    cases r with
    | none => exact Spends.done
    | some r =>
      have hnext := collect_accounts cfg fuel (some r.data.inode)
      refine neutral_bind fun cancelled => ?_
      cases cancelled with
      | true => exact Spends.done
      | false =>
        refine query_bind fun _ => ?_
        refine query_bind fun info => ?_
        refine query_bind fun _ => ?_
        cases info with
        | some info => exact hnext
        | none =>
          have hset : Accounts (FileHandles.setMigrationInfo cfg r) 0 (fun _ => 0) :=
            neutral_bind fun handle => (setInfo_settles r _).spends
          exact Spends.of_eq (hset.attempt_bind (v := 0) (fun _ => hnext) (fun _ => hnext))
            (zero_add 0)

/-- **The preparation of a migration gives back every reference it takes**, but for those in
the migration infos, and its `clone`s and `unwrap`s do not panic. -/
theorem prepareSerialization_accounts (cfg : Config) (fuel : Nat) :
    Accounts (prepareSerialization cfg fuel) 0 (fun _ => 0) := by
  have hcheck := ProcPaths.checkPaths_accounts cfg fuel
  refine (refAct_settles .clearMigrationInfo).spends.bind fun _ => ?_
  refine query_bind fun _ => ?_
  cases cfg.migrationMode with
  | findPaths =>
    refine (ProcPaths.construct_accounts cfg fuel).bind fun fallBack => ?_
    cases fallBack with
    | true => exact (FindPaths.construct_accounts cfg fuel).bind fun _ => hcheck
    | false => exact hcheck
  | fileHandles => exact (FileHandles.collect_accounts cfg fuel none).bind fun _ => hcheck

theorem serialize_accounts (cfg : Config) (fuel : Nat) :
    Accounts (serialize cfg fuel) 0 (fun _ => 0) := by
  have hclear := (refAct_settles .clearMigrationInfo).spends
  refine query_bind fun _ => ?_
  split
  · exact Spends.of_eq (((ProcPaths.confirmPaths_accounts cfg fuel).onErr hclear).bind
      fun _ => hclear) (zero_add _)
  · exact hclear

end Virtiofsd
