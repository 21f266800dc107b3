/-
  # What requests tell the dentry index

  A request that succeeds tells the dentry index about the names it was about, in its last
  step or so: `serve_emits` says what, for every request.  It does not depend on how the calls
  into the host are answered, and on other threads.

  While a migration is prepared, the daemon looks up names for itself, and these go into the
  index as well.  Left out are only requests that find the path of an inode on record when they
  invalidate it (`NoPaths`).
-/
import Virtiofsd.Lib.Emits
import Virtiofsd.Migration.Parts
import Virtiofsd.Passthrough.DentryIndex

namespace Virtiofsd

open Lib PassthroughFs

/-! ## 1. Telling the index -/

/-- The operation on the index, if the action is one. -/
def Act.dentryOps : Act → List DentryOp
  | .neutral (.query (.dentry op)) => [op]
  | _ => []

/-- The migration infos that are taken from inodes have no path; they may have a file handle. -/
def NoPaths : (a : Act) → a.Ans → Prop
  | .ref (.exchangeInfo _ _), old => ∀ info, old = some info → info.hasPath = false
  | _, _ => True

abbrev OffIndex {α : Type} (p : FsM α) : Prop := Silent Act.dentryOps NoPaths p

abbrev Tells {α : Type} (p : FsM α) (Q : α → List DentryOp → Prop) : Prop :=
  Emits Act.dentryOps NoPaths p Q

/-- The name that is looked up in the end. -/
def Request.looksUp : Request → Option (Inode × Name)
  | .lookup parent name => some (parent, name)
  | .mkdir _ parent name _ _ _ => some (parent, name)
  | .mknod _ parent name _ _ _ _ => some (parent, name)
  | .symlink _ _ parent name _ => some (parent, name)
  | .link _ newparent newname => some (newparent, newname)
  | .create _ parent name _ _ _ _ _ => some (parent, name)
  | _ => none

/-- The entry in a reply. -/
def Reply.entry? : Reply → Option Entry
  | .entry e => some e
  | .created e _ _ => some e
  | _ => none

/-- **What a request tells the index**, if it succeeds with the reply. -/
def IndexOps (r : Request) (reply : Reply) (ops : List DentryOp) : Prop :=
  match r with
  | .file _ => ops = []
  | .forget inode _ => ops.Sublist [.forget inode]
  | .batchForget requests => ops.Sublist (requests.map fun x => .forget x.1)
  | .rename olddir oldname newdir newname _ => ops = [.rename olddir oldname newdir newname]
  | .unlink parent name => ops = [.remove parent name]
  | .rmdir parent name => ops = [.remove parent name]
  | r => ∃ parent name e, r.looksUp = some (parent, name) ∧ reply.entry? = some e ∧
      ops = [.insert parent name e.inode]

/-! ## 2. What leaves the index alone -/

variable {α : Type} {cfg : Config}

theorem query_offIndex (q : Query) (h : ∀ op, q ≠ .dentry op) :
    OffIndex (liftM (query q) : FsM q.Ans) := by
  refine Silent.perform ?_
  cases q <;> first | rfl | exact absurd rfl (h _)

theorem refAct_offIndex (r : RefAct) : OffIndex (refAct r) := Silent.perform rfl

theorem offIndex_parts : OffIndexParts .offGuest fun {α : Type} (p : FsM α) => OffIndex p :=
  .of_actions Silent.compositional Silent.panic
    (fun c _ => Silent.perform (A := Act) (a := .neutral (.host c)) rfl)
    (fun q hq => query_offIndex q (by rintro op rfl; exact hq))
    (query_offIndex .fetchAddInode nofun) (query_offIndex .fetchAddHandle nofun)
    (fun handle data => query_offIndex (.insertHandle handle data) nofun)
    (fun r _ => refAct_offIndex r) fun data info => refAct_offIndex (.getOrInsert data info)

/-- An info without a path is put back. -/
theorem afterInvalidatingPath_offIndex (r : InodeRef) :
    OffIndex (afterInvalidatingPath cfg r) := by
  have h := offIndex_parts
  have hend : OffIndex ((liftM (query (.unlockInfo r)) : FsM Unit).bind fun _ =>
      StrongInodeReference.drop r) :=
    h.bind (h.query (.unlockInfo r) trivial) fun _ => h.dropRef r
  refine h.bind (h.query (.lockInfo r) trivial) fun _ => ?_
  refine Silent.act rfl fun old hold => ?_
  cases old with
  | none => exact hend
  | some info =>
    simp only [Prog.bind_ret, hold info rfl, Bool.false_eq_true, if_false]
    exact h.bind (h.setInfo r (some info)) fun _ => hend

theorem changingName_offIndex (parent : InodeData) (name : Name) {change : NeutralM Bool}
    (hc : OffIndex (liftM change : FsM Bool)) :
    OffIndex (changingName cfg parent name change) :=
  (offIndex_parts.claims cfg).changingName afterInvalidatingPath_offIndex parent name hc

theorem libc_offIndex (c : LibcCall) : OffIndex (liftM (libc c) : FsM Bool) :=
  offIndex_parts.host (.libc c) trivial

/-! ## 3. Requests -/

theorem dentry_tells (op : DentryOp) :
    Tells (liftM (query (.dentry op)) : FsM Unit) fun _ ops => ops = [op] :=
  Emits.perform (A := Act) (.neutral (.query (.dentry op)))

/-- **A lookup that succeeds** tells the index which inode it has found. -/
theorem doLookup_tells (parent : Inode) (name : Name) :
    Tells (doLookup cfg parent name) fun e ops => ops = [.insert parent name e.inode] := by
  have h := offIndex_parts
  refine Emits.after (h.query (.get parent) trivial) fun found => ?_
  cases found with
  | none => exact Emits.err
  | some p =>
    refine Emits.after ((h.claims cfg).tryLookupImplementation p.data name) fun x => ?_
    refine Emits.after (h.query (.load .announceSubmounts) trivial) fun announce => ?_
    dsimp only
    -- the inode is known, or entered now; then both ways are the same
    split
    on_goal 1 => refine Emits.after (Silent.compositional.ret _) fun inode => ?_
    on_goal 2 => refine Emits.after (h.insertInode p name _ _ _) fun inode => ?_
    all_goals
      split
      · exact Emits.after (h.dropRef _) fun _ => Emits.err
      · refine Emits.after (h.map (h.refAct (.leak _) trivial)) fun inodeId => ?_
        exact (dentry_tells _).before fun _ => Emits.ret ⟨rfl, fun _ hops => hops⟩

/-- The requests that make a name, as `RequestParts.newName`. -/
theorem newName_tells {parent : Inode} {name : Name} {extensions : Extensions}
    {removeFlags : Nat} {change : Fd → NeutralM Bool}
    (hc : ∀ fd, OffIndex (liftM (change fd) : FsM Bool)) :
    Tells (Prog.bind (liftM (getInode parent)) fun data : InodeRef =>
      Prog.bind (liftM data.data.getFile) fun fd : Fd =>
      Prog.bind (changingName cfg data.data name (change fd)) fun _ =>
      Prog.bind (liftM (labelNewName cfg fd name extensions removeFlags))
        fun _ : Unit => doLookup cfg parent name)
      fun e ops => ops = [.insert parent name e.inode] := by
  have hfiles := offIndex_parts.files cfg
  refine Emits.after (hfiles.getInode parent) fun data => ?_
  refine Emits.after (hfiles.getFile data.data) fun fd => ?_
  refine Emits.after (changingName_offIndex data.data name (hc fd)) fun _ => ?_
  exact Emits.after (hfiles.labelNewName _ _ _ _) fun _ => doLookup_tells parent name

theorem link_tells (inode newparent : Inode) (newname : Name) :
    Tells (link cfg inode newparent newname)
      fun e ops => ops = [.insert newparent newname e.inode] := by
  have hfiles := offIndex_parts.files cfg
  refine Emits.after (hfiles.getInode inode) fun data => ?_
  refine Emits.after (hfiles.getInode newparent) fun newInode => ?_
  refine Emits.after (hfiles.getFile data.data) fun inodeFile => ?_
  refine Emits.after (hfiles.getFile newInode.data) fun newparentFile => ?_
  refine Emits.after (changingName_offIndex _ _ (libc_offIndex _)) fun _ => ?_
  exact doLookup_tells newparent newname

theorem rename_tells (olddir : Inode) (oldname : Name) (newdir : Inode) (newname : Name)
    (flags : UInt32) : Tells (rename cfg olddir oldname newdir newname flags)
      fun _ ops => ops = [.rename olddir oldname newdir newname] := by
  have h := offIndex_parts
  have hfiles := h.files cfg
  refine Emits.after (hfiles.getInode olddir) fun oldInode => ?_
  refine Emits.after (hfiles.getInode newdir) fun newInode => ?_
  refine Emits.after (hfiles.getFile oldInode.data) fun oldFile => ?_
  refine Emits.after (hfiles.getFile newInode.data) fun newFile => ?_
  refine Emits.after (changingName_offIndex _ _ (libc_offIndex _)) fun _ => ?_
  refine Emits.after (h.attempt (h.updateInodeMigrationInfo newInode newname)) fun _ => ?_
  exact dentry_tells _

theorem doUnlink_tells (parent : Inode) (name : Name) (flags : Nat) :
    Tells (doUnlink cfg parent name flags)
      fun _ ops => ops = [.remove parent name] := by
  have hfiles := offIndex_parts.files cfg
  refine Emits.after (hfiles.getInode parent) fun data => ?_
  refine Emits.after (hfiles.getFile data.data) fun fd => ?_
  refine Emits.after (changingName_offIndex _ _ (libc_offIndex _)) fun _ => ?_
  exact dentry_tells _

theorem createEntry_tells (ctx : Context) (parent : Inode) (name : Name)
    (mode flags umask : UInt32) (extensions : Extensions) :
    Tells (createEntry cfg ctx parent name mode flags umask extensions)
      fun x ops => ops = [.insert parent name x.1.inode] := by
  have hfiles := offIndex_parts.files cfg
  have hlookup : ∀ fd : Option Fd, Tells ((doLookup cfg parent name).bind fun e => .ret (e, fd))
      fun x ops => ops = [.insert parent name x.1.inode] := fun fd =>
    (doLookup_tells parent name).before fun _ => Emits.ret ⟨rfl, fun _ hops => hops⟩
  refine Emits.after (hfiles.getInode parent) fun data => ?_
  refine Emits.after (hfiles.getFile data.data) fun fd => ?_
  refine Emits.after (hfiles.attempt (hfiles.doCreate _ _ _ _ _ _ _)) fun created => ?_
  cases created with
  | ok fd => exact hlookup (some fd)
  | error e =>
    dsimp only
    split
    · exact hlookup none
    · exact Emits.err

theorem forgetDentries_tells : ∀ inodes : List Inode,
    Tells (liftM (forgetDentries inodes) : FsM Unit)
      fun _ ops => ops.Sublist (inodes.map .forget)
  | [] => Emits.ret (List.Sublist.refl _)
  | inode :: inodes => by
    have hrest := forgetDentries_tells inodes
    refine Emits.act rfl fun found _ => ?_
    cases found with
    | some r => exact hrest.mono fun _ ops hops => hops.cons _
    | none =>
      refine ((dentry_tells (.forget inode)).bind fun _ => hrest).mono fun _ ops hops => ?_
      obtain ⟨-, first, rest, rfl, hsub, rfl⟩ := hops
      exact hsub.cons_cons _

theorem forget_tells (inode : Inode) (count : Nat) :
    Tells (forget inode count) fun _ ops => ops.Sublist [.forget inode] := by
  have h := offIndex_parts
  refine Emits.after (refAct_offIndex (.forgetOne inode count)) fun _ => ?_
  refine Emits.after (h.query .hasDentryIndex trivial) fun hasIndex => ?_
  cases hasIndex with
  | true => exact forgetDentries_tells [inode]
  | false => exact Emits.ret (List.nil_sublist _)

theorem batchForget_tells (requests : List (Inode × Nat)) :
    Tells (batchForget requests)
      fun _ ops => ops.Sublist (requests.map fun x => .forget x.1) := by
  have h := offIndex_parts
  refine Emits.after (h.query .hasDentryIndex trivial) fun hasIndex => ?_
  refine Emits.after (refAct_offIndex (.forgetMany requests)) fun _ => ?_
  cases hasIndex with
  | true =>
    refine (forgetDentries_tells (requests.map Prod.fst)).mono fun _ ops hops => ?_
    rwa [List.map_map] at hops
  | false => exact Emits.ret (List.nil_sublist _)

/-- A request with an entry for its reply. -/
theorem ofEntry_tells {p : FsM Entry} {r : Request} {parent : Inode} {name : Name}
    (hr : r.looksUp = some (parent, name))
    (hp : Tells p fun e ops => ops = [.insert parent name e.inode]) :
    Tells (Reply.ofEntry p) fun reply ops => ∃ parent name e,
      r.looksUp = some (parent, name) ∧ reply.entry? = some e ∧
        ops = [.insert parent name e.inode] :=
  hp.before fun e => Emits.ret ⟨rfl, fun _ hops => ⟨parent, name, e, hr, rfl, hops⟩⟩

theorem ofUnit_tells {p : FsM Unit} {Q : List DentryOp → Prop} (hp : Tells p fun _ => Q) :
    Tells (Reply.ofUnit p) fun _ => Q :=
  hp.before fun _ => Emits.ret ⟨rfl, fun _ hops => hops⟩

/-- **What requests tell the index.** -/
theorem serve_emits (cfg : Config) (r : Request) (hr : r.OverChain) :
    Tells (serve cfg r) (IndexOps r) := by
  have hfiles := offIndex_parts.files cfg
  have htransfers := hr.transfers hfiles Silent.panic fun _ => Silent.act rfl fun _ _ =>
    Silent.compositional.ret _
  cases r with
  | file r =>
    exact Emits.of_silent (Silent.compositional.bind (hfiles.serveFile r htransfers) fun _ =>
      Silent.compositional.ret _)
  | lookup parent name => exact ofEntry_tells rfl (doLookup_tells parent name)
  | forget inode count => exact ofUnit_tells (forget_tells inode count)
  | batchForget requests => exact ofUnit_tells (batchForget_tells requests)
  | mkdir ctx parent name mode umask extensions =>
    exact ofEntry_tells rfl (newName_tells fun fd =>
      hfiles.withCredentials _ _ _ (libc_offIndex (.mkdirat fd name mode)))
  | mknod ctx parent name mode rdev umask extensions =>
    exact ofEntry_tells rfl (newName_tells fun fd =>
      hfiles.withCredentials _ _ _ (libc_offIndex (.mknodat fd name mode rdev)))
  | symlink ctx linkname parent name extensions =>
    exact ofEntry_tells rfl (newName_tells fun fd =>
      hfiles.withCredentials _ _ _ (libc_offIndex (.symlinkat linkname fd name)))
  | link inode newparent newname => exact ofEntry_tells rfl (link_tells inode newparent newname)
  | rename olddir oldname newdir newname flags =>
    exact ofUnit_tells (rename_tells olddir oldname newdir newname flags)
  | unlink parent name | rmdir parent name => exact ofUnit_tells (doUnlink_tells parent name _)
  | create ctx parent name mode killPriv flags umask extensions =>
    refine Emits.before (Q := fun x ops => ops = [.insert parent name x.1.inode]) ?_ fun x =>
      Emits.ret ⟨rfl, fun _ hops => ⟨parent, name, x.1, rfl, rfl, hops⟩⟩
    refine (createEntry_tells ctx parent name mode flags umask extensions).before fun x => ?_
    refine (Emits.of_silent (hfiles.createHandle mode killPriv flags x.1 x.2)).before fun _ => ?_
    exact Emits.ret ⟨rfl, fun _ hops => ⟨hops, fun _ hops' => hops'⟩⟩

theorem serve_emits_read :
    Tells (serve Config.default (.file (.read 1 0 eightBytes.zcWriter 8 0)))
      (IndexOps (.file (.read 1 0 eightBytes.zcWriter 8 0))) :=
  serve_emits _ _ ⟨eightBytes, rfl⟩

end Virtiofsd
