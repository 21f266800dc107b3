/-
  # The references a request takes and gives back

  For every program of the daemon: which references it needs, which it ends with when it
  succeeds, and that it ends with none when it fails.  `Accounts p use give` is `Lib.Spends`
  for the references; the proofs follow the program text.

  The panics that concern references, `StrongInodeReference::clone` and the `unwrap` of the
  inode of an entry, are not among those a program that accounts for its references can have.
-/
import Virtiofsd.Lib.Spending
import Virtiofsd.Passthrough.Requests

namespace Virtiofsd

open Lib

/-! ## 1. Rules -/

/-- Panics that have nothing to do with references. -/
def PanicSite.Local (p : PanicSite) : Prop := ∃ q, p = .here q

/-- **A program accounts for its references.** -/
abbrev Accounts {α : Type} (p : FsM α) (use : Multiset Ref) (give : α → Multiset Ref) : Prop :=
  Spends refTokens PanicSite.Local p use give

/-- A program that cannot fail accounts for its references. -/
abbrev AccountsSurely {α : Type} (p : FsM α) (use : Multiset Ref) (give : α → Multiset Ref) :
    Prop :=
  Settles refTokens PanicSite.Local p use give

variable {α β : Type} {u v : Multiset Ref} {g : α → Multiset Ref}

theorem neutral_accounts (p : NeutralM α) : Accounts (liftM p) 0 (fun _ => 0) :=
  spends_mapAct (fun _ => rfl) (fun _ _ => rfl) (fun q => ⟨q, rfl⟩) p

theorem query_settles (q : Query) : AccountsSurely (liftM (query q)) 0 (fun _ => 0) :=
  Settles.perform

/-- A step on the shared state, with any references at hand. -/
theorem query_bind {q : Query} {k : q.Ans → FsM α} (hk : ∀ r, Accounts (k r) v g) :
    Accounts ((liftM (query q) : FsM q.Ans).bind k) v g :=
  ((query_settles q).bind_spends (v := v) fun r => (hk r).of_eq (zero_add v).symm).of_eq
    (zero_add v)

/-- A step that may fail, with no references at hand. -/
theorem neutral_bind {p : NeutralM β} {k : β → FsM α} (hk : ∀ b, Accounts (k b) 0 g) :
    Accounts ((liftM p : FsM β).bind k) 0 g :=
  (neutral_accounts p).bind hk

theorem refAct_settles (a : RefAct) :
    AccountsSurely (refAct a) (refTokens.use (.ref a)) (refTokens.give (.ref a)) :=
  Settles.perform

/-- A step on references: it takes its own and leaves the others. -/
theorem refAct_bind {a : RefAct} {k : a.Ans → FsM α}
    (hk : ∀ τ r, refTokens.may (.ref a) (τ + (refTokens.use (.ref a) + v)) r →
      Accounts (k r) (refTokens.give (.ref a) r + v) g) :
    Accounts ((refAct a).bind k) (refTokens.use (.ref a) + v) g :=
  Spends.act hk

/-! ## 2. Strong references and migration infos -/

namespace StrongInodeReference

variable (r : InodeRef)

theorem newWithData_accounts :
    Accounts (newWithData r) 0 (fun r' => {.strong r'}) := by
  refine (refAct_settles (.increment r)).spends.bind fun ok => ?_
  cases ok with
  | true => exact Spends.ret (m := fun r' => {Ref.strong r'})
  | false => exact Spends.err

theorem new_accounts (i : Inode) : Accounts (new i) 0 (fun r => {.strong r}) := by
  refine query_bind fun r => ?_
  cases r with
  | some r => exact newWithData_accounts r
  | none => exact Spends.err

/-- **`clone` does not panic**: the reference that is cloned keeps the inode. -/
theorem clone_settles :
    AccountsSurely (clone r) {.strong r} (fun r' => {.strong r'} + {.strong r}) := by
  have h : AccountsSurely (clone r) (refTokens.use (.ref (.increment r)) + {.strong r})
      (fun r' => {.strong r'} + {.strong r}) := by
    refine Settles.act fun τ ok hmay => ?_
    obtain rfl : ok = true := hmay (by simp)
    exact Settles.ret (m := fun r' => {Ref.strong r'} + {Ref.strong r})
  exact h.of_eq (zero_add _)

theorem leak_settles :
    AccountsSurely (leak r) {.strong r} (fun i => {.guest i}) :=
  ((refAct_settles (.leak r)).bind (v := 0) fun _ =>
    (Settles.ret (m := fun i => {Ref.guest i})).of_eq (add_zero _).symm).of_eq (add_zero _)

theorem drop_settles : AccountsSurely (drop r) {.strong r} (fun _ => 0) :=
  refAct_settles (.dropRef r)

/-- The reference there may be. -/
def optTokens : Option InodeRef → Multiset Ref
  | some r => {.strong r}
  | none => 0

theorem dropOpt_settles (r : Option InodeRef) :
    AccountsSurely (dropOpt r) (optTokens r) (fun _ => 0) := by
  cases r with
  | some r => exact drop_settles r
  | none => exact Settles.ret (m := fun _ => 0)

end StrongInodeReference

open StrongInodeReference

theorem dropInfo_settles (info : Option InodeMigrationInfo) :
    AccountsSurely (dropInfo info) (infoTokens info) (fun _ => 0) := by
  have h := dropOpt_settles (infoParent info)
  refine h.of_eq ?_
  unfold infoTokens
  cases infoParent info <;> rfl

theorem setInfo_settles (r : InodeRef) (info : Option InodeMigrationInfo) :
    AccountsSurely (setInfo r info) (infoTokens info) (fun _ => 0) :=
  ((refAct_settles (.exchangeInfo r info)).bind (v := 0) fun old =>
    (dropInfo_settles old).of_eq (add_zero _).symm).of_eq (add_zero _)

/-- The parent's reference ends up in the info, or nowhere. -/
theorem InodeMigrationInfo.new_accounts (cfg : Config) (parentRef : InodeRef) (filename : Name)
    (fileOrHandle : FileOrHandle) :
    Accounts (InodeMigrationInfo.new cfg parentRef filename fileOrHandle) {.strong parentRef}
      (fun info => infoTokens (some info)) := by
  unfold InodeMigrationInfo.new
  cases cfg.migrationMode with
  | findPaths =>
    refine Spends.of_eq (((neutral_accounts _).onErr (drop_settles parentRef).spends).bind
      fun fileHandle => ?_) (zero_add _)
    exact (Spends.ret (m := fun info => infoTokens (some info))).of_eq (zero_add _).symm
  | fileHandles =>
    refine Spends.of_eq (((neutral_accounts _).ensuring (drop_settles parentRef).spends
      fun _ => rfl).bind fun handles => ?_) (zero_add _)
    exact Spends.ret (m := fun info => infoTokens (some info))

/-! ## 3. Lookups -/

theorem claimInode_accounts (handle : Option FileHandle) (ids : InodeIds) :
    Accounts (claimInode handle ids) 0 optTokens := by
  have h : Accounts (claimInode handle ids) (refTokens.use (.ref (.claim handle ids)) + 0)
      optTokens := by
    refine refAct_bind fun τ k hmay => ?_
    cases k with
    | found | notFound => exact Spends.ret (m := optTokens)
    | dangling => exact absurd rfl hmay
  exact h

theorem tryLookupImplementation_accounts (cfg : Config) (parent : InodeData) (name : Name) :
    Accounts (tryLookupImplementation cfg parent name) 0 (fun r => optTokens r.1) := by
  refine neutral_bind fun found => ?_
  refine (claimInode_accounts _ _).bind fun r => ?_
  exact Spends.ret (m := fun r : Option InodeRef × Fd × StatExt × Option FileHandle =>
    optTokens r.1)

theorem tryLookup_accounts (cfg : Config) (parent : InodeData) (name : Name) :
    Accounts (tryLookup cfg parent name) 0 optTokens :=
  (tryLookupImplementation_accounts cfg parent name).bind fun _ => Spends.ret (m := optTokens)

theorem newMigrationInfo_accounts (cfg : Config) (p : InodeRef) (name : Name)
    (fileOrHandle : FileOrHandle) :
    Accounts (newMigrationInfo cfg p name fileOrHandle) 0 infoTokens := by
  refine query_bind fun track => ?_
  cases track with
  | true =>
    refine (newWithData_accounts p).bind fun parentRef => ?_
    refine (InodeMigrationInfo.new_accounts cfg parentRef name fileOrHandle).bind fun info => ?_
    exact Spends.ret (m := infoTokens)
  | false => exact Spends.ret (m := infoTokens)

theorem dropFile_settles (f : FileOrHandle) :
    AccountsSurely (liftM (dropFile f)) 0 (fun _ => 0) := by
  cases f with
  | file fd => exact query_settles .releaseFd
  | handle | invalid => exact Settles.ret (m := fun _ => 0)

/-- Dropping an `InodeData` that was not inserted, with other references at hand. -/
theorem dropData_bind {f : FileOrHandle} {info : Option InodeMigrationInfo} {k : FsM α}
    (hk : Accounts k v g) :
    Accounts ((liftM (dropFile f) : FsM Unit).bind fun _ => (dropInfo info).bind fun _ => k)
      (infoTokens info + v) g := by
  refine Spends.of_eq ((dropFile_settles f).bind_spends fun _ => ?_) (zero_add _)
  refine Spends.of_eq ((dropInfo_settles info).bind_spends fun _ => ?_) (zero_add _).symm
  exact hk.of_eq (zero_add _).symm

theorem getOrInsert_accounts (data : InodeData) (info : Option InodeMigrationInfo) :
    Accounts (getOrInsert data info) (infoTokens info) (fun r => {.strong r}) := by
  have h : Accounts (getOrInsert data info) (refTokens.use (.ref (.getOrInsert data info)) + 0)
      (fun r => {.strong r}) := by
    refine refAct_bind fun τ k hmay => ?_
    cases k with
    | inserted r => exact Spends.ret (m := fun r => {Ref.strong r})
    | found r =>
      refine Spends.of_eq (dropData_bind (Spends.ret (m := fun r => {Ref.strong r}))) ?_
      exact (add_comm _ _).trans (add_zero _).symm
    | doubleUse => exact dropData_bind Spends.err
    | dangling => exact absurd rfl hmay
  exact h.of_eq (add_zero _)

theorem insertInode_accounts (cfg : Config) (p : InodeRef) (name : Name) (pathFd : Fd)
    (st : StatExt) (handle : Option FileHandle) :
    Accounts (insertInode cfg p name pathFd st handle) 0 (fun r => {.strong r}) := by
  refine neutral_bind fun f => ?_
  refine Spends.of_eq (((newMigrationInfo_accounts cfg p name f).onErr
    (dropFile_settles f).spends).bind fun info => ?_) (zero_add 0)
  refine Spends.of_eq ?_ (add_zero _).symm
  exact query_bind fun inode => getOrInsert_accounts _ info

/-- **`do_lookup` hands one reference to the guest, or takes none.** -/
theorem doLookup_accounts (cfg : Config) (parent : Inode) (name : Name) :
    Accounts (doLookup cfg parent name) 0 (fun e => {.guest e.inode}) := by
  refine query_bind fun p => ?_
  cases p with
  | none => exact Spends.err
  | some p =>
    refine (tryLookupImplementation_accounts cfg p.data name).bind fun found => ?_
    refine query_bind fun announce => ?_
    obtain ⟨existing, pathFd, st, handle⟩ := found
    rcases existing with _ | inode
    on_goal 1 => refine (insertInode_accounts cfg p name pathFd st handle).bind fun inode => ?_
    on_goal 2 => refine (Spends.ret (m := fun r => {Ref.strong r})).bind fun inode => ?_
    -- the rest of the function, once it has its strong reference
    all_goals
      cases Attr.tryWithFlags cfg st.st (attrFlags p.data st announce) with
      | error e => exact (drop_settles inode).spends.bind fun _ => Spends.err
      | ok attr =>
        refine (leak_settles inode).spends.bind fun i => ?_
        exact query_bind fun _ => Spends.ret (m := fun e : Entry => {Ref.guest e.inode})

/-! ## 4. Paths -/

/-- `parent` stays with the caller unless it has become part of the info. -/
theorem setPathIfNone_accounts (cfg : Config) (parent entry : InodeRef) (element : Name) :
    Accounts (setPathIfNone cfg parent entry element) {.strong parent}
      (fun moved => if moved then 0 else {.strong parent}) := by
  refine query_bind fun _ => ?_
  refine query_bind fun info => ?_
  cases info with
  | some info =>
    refine query_bind fun _ => ?_
    exact Spends.ret (m := fun moved : Bool => if moved then 0 else {Ref.strong parent})
  | none =>
    refine Spends.of_eq ((InodeMigrationInfo.new_accounts cfg parent element
      entry.data.fileOrHandle).attempt_bind (v := 0) (fun info => ?_) (fun e => ?_)) (add_zero _)
    · refine (setInfo_settles entry (some info)).bind_spends fun _ => ?_
      refine query_bind fun _ => ?_
      exact Spends.ret (m := fun moved : Bool => if moved then 0 else {Ref.strong parent})
    · exact query_bind fun _ => Spends.err

theorem followElement_accounts (cfg : Config) (parent : InodeRef) (element : Name) :
    Accounts (followElement cfg parent element) {.strong parent} (fun r => {.strong r}) := by
  refine Spends.of_eq (((doLookup_accounts cfg parent.data.inode element).onErr
    (drop_settles parent).spends).bind fun entry => ?_) (zero_add _)
  -- the entry's lookup is adopted: this is the `unwrap` that cannot fail
  refine Spends.of_eq (u := refTokens.use (.ref (.adopt entry.inode)) + {.strong parent})
    (refAct_bind fun τ r hmay => ?_) rfl
  obtain ⟨entryInode, rfl, -⟩ := hmay
  refine Spends.of_eq (((setPathIfNone_accounts cfg parent entryInode element).onErr
    (drop_settles entryInode).spends).bind fun moved => ?_) (add_comm _ _)
  cases moved with
  | true => exact (Spends.ret (m := fun r => {Ref.strong r})).of_eq (zero_add _).symm
  | false =>
    refine (drop_settles parent).bind_spends fun _ => ?_
    exact (Spends.ret (m := fun r => {Ref.strong r})).of_eq (zero_add _).symm

theorem followPath_accounts (cfg : Config) : ∀ (elements : List Name) (parent : InodeRef),
    Accounts (followPath cfg elements parent) {.strong parent} (fun r => {.strong r})
  | [], _ => Spends.ret (m := fun r => {Ref.strong r})
  | element :: rest, parent =>
    (followElement_accounts cfg parent element).bind (followPath_accounts cfg rest)

theorem setPathMigrationInfoFromProcSelfFd_accounts (cfg : Config) (inode : InodeData)
    (sharedDirPath : Name) :
    Accounts (setPathMigrationInfoFromProcSelfFd cfg inode sharedDirPath) 0 (fun _ => 0) := by
  refine neutral_bind fun relPath => ?_
  cases relPath with
  | error err => exact Spends.done
  | ok relPath =>
    refine Spends.of_eq ((new_accounts ROOT_ID).attempt_bind (v := 0) (fun root => ?_)
      (fun e => Spends.done)) (add_zero _)
    refine (followPath_accounts cfg _ root).attempt_bind (fun last => ?_)
      (fun e => Spends.done)
    refine (drop_settles last).bind_spends fun _ => ?_
    rw [add_zero]
    split <;> exact Spends.done

theorem updateInodeMigrationInfo_accounts (cfg : Config) (parent : InodeRef) (filename : Name) :
    Accounts (updateInodeMigrationInfo cfg parent filename) 0 (fun _ => 0) := by
  unfold updateInodeMigrationInfo
  refine query_bind fun track => ?_
  cases track with
  | false => exact Spends.done
  | true =>
    refine (tryLookup_accounts cfg parent.data filename).bind fun inode => ?_
    cases inode with
    | none => exact Spends.done
    | some inode =>
      refine Spends.of_eq (((newWithData_accounts parent).onErr
        (drop_settles inode).spends).bind fun parentRef => ?_) (zero_add _)
      refine query_bind fun _ => ?_
      refine Spends.of_eq ((refAct_settles (.exchangeInfo inode none)).bind_spends
        (v := {.strong parentRef} + {.strong inode}) fun old => ?_) (zero_add _)
      split
      · refine (dropInfo_settles old).bind_spends fun _ => ?_
        refine Spends.of_eq ((InodeMigrationInfo.new_accounts cfg parentRef filename
          inode.data.fileOrHandle).attempt_bind (v := {.strong inode}) (fun info => ?_)
          (fun e => ?_)) (zero_add _).symm
        · refine (setInfo_settles inode (some info)).bind_spends fun _ => ?_
          rw [zero_add]
          exact query_bind fun _ => (drop_settles inode).spends
        · refine query_bind fun _ => ?_
          exact (drop_settles inode).spends.bind fun _ => Spends.err
      · refine (setInfo_settles inode old).bind_spends fun _ => ?_
        rw [zero_add]
        refine query_bind fun _ => ?_
        refine (drop_settles parentRef).bind_spends fun _ => ?_
        rw [zero_add]
        exact (drop_settles inode).spends

theorem beforeInvalidatingPath_accounts (cfg : Config) (parent : InodeData) (filename : Name) :
    Accounts (beforeInvalidatingPath cfg parent filename) 0 optTokens := by
  refine Spends.of_eq ((tryLookup_accounts cfg parent filename).attempt_bind (v := 0)
    (fun inode => ?_) (fun e => Spends.ret (m := optTokens) (a := none))) (add_zero _)
  rw [add_zero]
  exact Spends.ret (m := optTokens)

theorem afterInvalidatingPathRefresh_accounts (cfg : Config) (inode : InodeData) :
    Accounts (afterInvalidatingPathRefresh cfg inode) 0 (fun _ => 0) := by
  refine query_bind fun root => ?_
  cases root with
  | none => exact Spends.err
  | some root =>
    refine neutral_bind fun path => ?_
    cases path with
    | error e => exact Spends.err
    | ok path =>
      refine (setPathMigrationInfoFromProcSelfFd_accounts cfg inode path).bind fun r => ?_
      cases r with
      | ok _ => exact Spends.done
      | error e => exact Spends.err

theorem afterInvalidatingPath_accounts (cfg : Config) (inode : InodeRef) :
    Accounts (afterInvalidatingPath cfg inode) {.strong inode} (fun _ => 0) := by
  have hend : ∀ info : Option InodeMigrationInfo,
      Accounts ((dropInfo info).bind fun _ => StrongInodeReference.drop inode)
        (infoTokens info + {.strong inode}) (fun _ => 0) := fun info =>
    (dropInfo_settles info).bind_spends fun _ =>
      (drop_settles inode).spends.of_eq (zero_add _).symm
  refine query_bind fun _ => ?_
  refine Spends.of_eq ((refAct_settles (.exchangeInfo inode none)).bind_spends fun old => ?_)
    (zero_add _)
  cases old with
  | none => exact query_bind fun _ => (drop_settles inode).spends.of_eq (zero_add _).symm
  | some info =>
    show Accounts (if info.hasPath = true then _ else _) _ _
    split
    · refine query_bind fun _ => ?_
      refine Spends.of_eq ((afterInvalidatingPathRefresh_accounts cfg inode.data).attempt_bind
        (fun _ => ?_) (fun e => hend (some info))) (zero_add _)
      rw [zero_add]
      exact query_bind fun _ => hend (some info)
    · refine (setInfo_settles inode (some info)).bind_spends fun _ => ?_
      exact query_bind fun _ => (drop_settles inode).spends.of_eq (zero_add _).symm

theorem afterInvalidating_accounts (cfg : Config) (inode : Option InodeRef) :
    Accounts (afterInvalidating cfg inode) (optTokens inode) (fun _ => 0) := by
  cases inode with
  | some inode => exact afterInvalidatingPath_accounts cfg inode
  | none => exact Spends.done

/-! ## 5. Requests -/

namespace PassthroughFs

variable (cfg : Config)

theorem changingName_accounts (parent : InodeData) (name : Name) (change : NeutralM Bool) :
    Accounts (changingName cfg parent name change) 0 (fun _ => 0) := by
  refine (beforeInvalidatingPath_accounts cfg parent name).bind fun invalidated => ?_
  refine Spends.of_eq (((neutral_accounts change).onErr
    (dropOpt_settles invalidated).spends).bind fun ok => ?_) (zero_add _)
  rw [zero_add]
  refine (afterInvalidating_accounts cfg invalidated).bind fun _ => ?_
  cases ok with
  | true => exact Spends.done
  | false => exact neutral_bind fun _ => Spends.err

theorem rename_accounts (olddir : Inode) (oldname : Name) (newdir : Inode) (newname : Name)
    (flags : UInt32) :
    Accounts (rename cfg olddir oldname newdir newname flags) 0 (fun _ => 0) := by
  refine neutral_bind fun oldInode => ?_
  refine neutral_bind fun newInode => ?_
  refine neutral_bind fun oldFile => ?_
  refine neutral_bind fun newFile => ?_
  refine (changingName_accounts cfg _ _ _).bind fun _ => ?_
  refine Spends.of_eq ((updateInodeMigrationInfo_accounts cfg newInode newname).attempt_bind
    (v := 0) (fun _ => ?_) (fun _ => ?_)) (add_zero _)
  · exact neutral_accounts _
  · exact neutral_accounts _

theorem doUnlink_accounts (parent : Inode) (name : Name) (flags : Nat) :
    Accounts (doUnlink cfg parent name flags) 0 (fun _ => 0) := by
  refine neutral_bind fun data => ?_
  refine neutral_bind fun parentFile => ?_
  exact (changingName_accounts cfg _ _ _).bind fun _ => neutral_accounts _

/-- `mkdir`, `mknod` and `symlink`, after the descriptor of the parent is there. -/
theorem newName_accounts (parent : Inode) (data : InodeData) (parentFile : Fd) (name : Name)
    (change : NeutralM Bool) (extensions : Extensions) (removeFlags : Nat) :
    Accounts ((changingName cfg data name change).bind fun _ =>
      (liftM (labelNewName cfg parentFile name extensions removeFlags) : FsM Unit).bind fun _ =>
        doLookup cfg parent name) 0 (fun e => {.guest e.inode}) := by
  refine (changingName_accounts cfg data name change).bind fun _ => ?_
  exact neutral_bind fun _ => doLookup_accounts cfg parent name

variable (ctx : Context)

theorem mkdir_accounts (parent : Inode) (name : Name) (mode umask : UInt32)
    (extensions : Extensions) :
    Accounts (mkdir cfg ctx parent name mode umask extensions) 0 (fun e => {.guest e.inode}) :=
  neutral_bind fun data => neutral_bind fun fd =>
    newName_accounts cfg parent data.data fd name _ _ _

theorem mknod_accounts (parent : Inode) (name : Name) (mode rdev umask : UInt32)
    (extensions : Extensions) :
    Accounts (mknod cfg ctx parent name mode rdev umask extensions) 0
      (fun e => {.guest e.inode}) :=
  neutral_bind fun data => neutral_bind fun fd =>
    newName_accounts cfg parent data.data fd name _ _ _

theorem symlink_accounts (linkname : Name) (parent : Inode) (name : Name)
    (extensions : Extensions) :
    Accounts (symlink cfg ctx linkname parent name extensions) 0 (fun e => {.guest e.inode}) :=
  neutral_bind fun data => neutral_bind fun fd =>
    newName_accounts cfg parent data.data fd name _ _ _

theorem link_accounts (inode newparent : Inode) (newname : Name) :
    Accounts (link cfg inode newparent newname) 0 (fun e => {.guest e.inode}) := by
  refine neutral_bind fun data => ?_
  refine neutral_bind fun newInode => ?_
  refine neutral_bind fun inodeFile => ?_
  refine neutral_bind fun newparentFile => ?_
  exact (changingName_accounts cfg _ _ _).bind fun _ => doLookup_accounts cfg newparent newname

theorem forget_accounts (inode : Inode) (count : Nat) :
    Accounts (forget inode count) (Multiset.replicate count (.guest inode)) (fun _ => 0) := by
  refine (refAct_settles (.forgetOne inode count)).spends.bind fun _ => ?_
  refine query_bind fun hasIndex => ?_
  cases hasIndex with
  | true => exact neutral_accounts _
  | false => exact Spends.done

theorem batchForget_accounts (requests : List (Inode × Nat)) :
    Accounts (batchForget requests) (InodeStoreInner.forgottenTokens requests) (fun _ => 0) := by
  refine query_bind fun hasIndex => ?_
  refine (refAct_settles (.forgetMany requests)).spends.bind fun _ => ?_
  cases hasIndex with
  | true => exact neutral_accounts _
  | false => exact Spends.done

/-- The first half of `create`, after which the guest's reference is taken. -/
theorem createEntry_accounts (parent : Inode) (name : Name) (mode flags umask : UInt32)
    (extensions : Extensions) :
    Accounts (createEntry cfg ctx parent name mode flags umask extensions) 0
      (fun r => {.guest r.1.inode}) := by
  have hlookup : ∀ fd : Option Fd, Accounts ((doLookup cfg parent name).bind fun e => .ret (e, fd))
      0 (fun r => {.guest r.1.inode}) := fun fd =>
    (doLookup_accounts cfg parent name).bind fun e =>
      Spends.ret (m := fun r : Entry × Option Fd => {Ref.guest r.1.inode})
  refine neutral_bind fun data => ?_
  refine neutral_bind fun parentFile => ?_
  refine neutral_bind fun fd => ?_
  cases fd with
  | error e =>
    show Accounts (if _ then _ else _) _ _
    split
    · exact hlookup none
    · exact Spends.err
  | ok fd => exact hlookup (some fd)

end PassthroughFs

theorem PassthroughFsRo.createEntry_accounts (cfg : Config) (parent : Inode) (name : Name) :
    Accounts (PassthroughFsRo.createEntry cfg parent name) 0 (fun e => {.guest e.inode}) := by
  refine Spends.of_eq ((doLookup_accounts cfg parent name).attempt_bind (v := 0) (fun e => ?_)
    (fun e => Spends.err)) (add_zero _)
  exact (Spends.ret (m := fun e : Entry => {Ref.guest e.inode})).of_eq (add_zero _).symm

/-- The lookups a request gives back. -/
def Request.forgets : Request → Multiset Inode
  | .forget inode count => Multiset.replicate count inode
  | .batchForget requests => InodeStoreInner.forgotten requests
  | _ => 0

/-- The lookups a reply hands out. -/
def Reply.granted : Reply → Multiset Inode
  | .entry e => {e.inode}
  | .created e _ _ => {e.inode}
  | _ => 0

/-- Lookups as references of the guest. -/
abbrev guestRefs (s : Multiset Inode) : Multiset Ref := s.map .guest

theorem map_inode_guestRefs (s : Multiset Inode) : (guestRefs s).map Ref.inode = s := by
  rw [guestRefs, Multiset.map_map]
  exact Multiset.map_id _

/-- Whether a request is CREATE. -/
def Request.IsCreate : Request → Prop
  | .create .. => True
  | _ => False

theorem Reply.ofEntry_accounts {p : FsM Entry} (hp : Accounts p 0 fun e => {.guest e.inode}) :
    Accounts (Reply.ofEntry p) 0 (fun r => guestRefs r.granted) :=
  hp.bind fun e => Spends.ret (m := fun r : Reply => guestRefs r.granted) (a := .entry e)

theorem Reply.ofUnit_accounts {p : FsM Unit} (hp : Accounts p u fun _ => 0) :
    Accounts (Reply.ofUnit p) u (fun r => guestRefs r.granted) :=
  hp.bind fun _ => Spends.ret (m := fun r : Reply => guestRefs r.granted) (a := .done)

theorem Reply.ofFile_accounts (p : NeutralM FileReply) :
    Accounts (Reply.ofFile p) 0 (fun r => guestRefs r.granted) :=
  neutral_bind fun r => Spends.ret (m := fun r : Reply => guestRefs r.granted) (a := .file r)

/-- **Every request but CREATE accounts for its references**: it takes what its entry says
and gives back what it forgets. -/
theorem PassthroughFs.serve_accounts (cfg : Config) (request : Request)
    (h : ¬ request.IsCreate) :
    Accounts (PassthroughFs.serve cfg request) (guestRefs request.forgets)
      (fun r => guestRefs r.granted) := by
  cases request with
  | file request => exact Reply.ofFile_accounts _
  | lookup parent name => exact Reply.ofEntry_accounts (doLookup_accounts cfg parent name)
  | forget inode count =>
    refine Reply.ofUnit_accounts ((forget_accounts inode count).of_eq ?_)
    exact (Multiset.map_replicate _ _ _).symm
  | batchForget requests => exact Reply.ofUnit_accounts (batchForget_accounts requests)
  | mkdir ctx parent name mode umask extensions =>
    exact Reply.ofEntry_accounts (mkdir_accounts cfg ctx parent name mode umask extensions)
  | mknod ctx parent name mode rdev umask extensions =>
    exact Reply.ofEntry_accounts (mknod_accounts cfg ctx parent name mode rdev umask extensions)
  | symlink ctx linkname parent name extensions =>
    exact Reply.ofEntry_accounts (symlink_accounts cfg ctx linkname parent name extensions)
  | link inode newparent newname =>
    exact Reply.ofEntry_accounts (link_accounts cfg inode newparent newname)
  | rename olddir oldname newdir newname flags =>
    exact Reply.ofUnit_accounts (rename_accounts cfg olddir oldname newdir newname flags)
  | unlink parent name => exact Reply.ofUnit_accounts (doUnlink_accounts cfg parent name 0)
  | rmdir parent name =>
    exact Reply.ofUnit_accounts (doUnlink_accounts cfg parent name AT_REMOVEDIR)
  | create => exact absurd trivial h

/-- The same, read-only: the requests that are refused take nothing. -/
theorem PassthroughFsRo.serve_accounts (cfg : Config) (request : Request)
    (h : ¬ request.IsCreate) :
    Accounts (PassthroughFsRo.serve cfg request) (guestRefs request.forgets)
      (fun r => guestRefs r.granted) := by
  cases request with
  | file request => exact Reply.ofFile_accounts _
  | lookup parent name => exact PassthroughFs.serve_accounts cfg (.lookup parent name) h
  | forget inode count => exact PassthroughFs.serve_accounts cfg (.forget inode count) h
  | batchForget requests => exact PassthroughFs.serve_accounts cfg (.batchForget requests) h
  | mkdir | mknod | symlink | link | rename | unlink | rmdir => exact Spends.err
  | create => exact absurd trivial h

end Virtiofsd
