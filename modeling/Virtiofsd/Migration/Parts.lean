/-
  # What the jobs of the daemon are made of

  `JobParts` is what has to be known for a compositional property, one that panics have, to
  hold of all that runs in the daemon: requests, the preparation of a migration and the
  serialization.  Left are the single actions, and the three places where an id is drawn and
  used: `newHandle` for handles, and `drawInode` for inodes.
-/
import Virtiofsd.Migration.Interleaving
import Virtiofsd.Passthrough.Parts

namespace Virtiofsd

open Lib

variable {α β : Type} {cfg : Config}

/-! ## 1. The parts -/

/-- Accesses to the shared state that draw no id, enter nothing into a table and change no
setting. -/
def Query.Ordinary : Query → Prop
  | .fetchAddInode => False
  | .fetchAddHandle => False
  | .storeNextInode _ => False
  | .storeNextHandle _ => False
  | .store _ _ => False
  | .insertHandle _ _ => False
  | .clearHandles => False
  | _ => True

/-- The same, without operations on the dentry index. -/
def Query.OffIndex : Query → Prop
  | .dentry _ => False
  | q => q.Ordinary

theorem Query.OffIndex.ordinary {q : Query} (h : q.OffIndex) : q.Ordinary := by
  cases q <;> first | exact trivial | exact h

theorem Query.Plain.offIndex {q : Query} (h : q.Plain) : q.OffIndex := by
  cases q <;> first | exact trivial | exact h

/-- Accesses to references that enter no inode into the store, and are no FORGET. -/
def RefAct.Ordinary : RefAct → Prop
  | .getOrInsert _ _ => False
  | .forgetOne _ _ => False
  | .forgetMany _ => False
  | _ => True

/-- Draw an id for a new inode, and put it into the store. -/
def drawInode (f : FileOrHandle) (ids : InodeIds) (mode : Nat) (info : Option InodeMigrationInfo) :
    FsM InodeRef := do
  let inode ← query .fetchAddInode
  getOrInsert ⟨inode, f, ids, mode⟩ info

/-- What the jobs of the daemon are made of that leave the dentry index alone. -/
structure OffIndexParts (C : CallClass) (W : ∀ {α : Type}, FsM α → Prop) : Prop
    extends Compositional W where
  panic : ∀ {α : Type} (q : PanicSite), W (.panic q : FsM α)
  host : ∀ c, C.Has c → W (liftM (host c) : FsM c.Ans)
  query : ∀ q : Query, q.OffIndex → W (liftM (query q) : FsM q.Ans)
  refAct : ∀ r : RefAct, r.Ordinary → W (refAct r)
  newHandle : ∀ inode fd type flags,
    W (liftM (PassthroughFs.newHandle inode fd type flags) : FsM Handle)
  drawInode : ∀ f ids mode info, W (drawInode f ids mode info)

/-- **What the jobs of the daemon are made of.** -/
structure JobParts (W : ∀ {α : Type}, FsM α → Prop) : Prop
    extends OffIndexParts .offGuest W where
  transfer : ∀ c, W (liftM (Virtiofsd.host c) : FsM c.Ans)
  dentry : ∀ op, W (liftM (Virtiofsd.query (.dentry op)) : FsM Unit)
  forget : ∀ inode count, W (PassthroughFs.forget inode count)
  batchForget : ∀ requests, W (PassthroughFs.batchForget requests)

/-- The check of a path only makes calls into the host. -/
theorem HostParts.checkPresence {W : ∀ {α : Type}, NeutralM α → Prop} {C : CallClass}
    (h : HostParts C W) (parent : InodeData) (filename : Name) (d : InodeData)
      (info : InodeMigrationInfo) :
    W (checkPresence parent filename d info) := by
  have hexpected : W (expectedHandle d info) := by
    unfold expectedHandle
    split
    · exact h.ret _
    · refine h.bind (h.attempt (h.toSerializable d.fileOrHandle)) fun r => ?_
      cases r with
      | ok | error => exact h.ret _
  refine h.guard ?_
  refine h.bind (h.getFile parent) fun parentFd => ?_
  refine h.bind (h.statx parentFd (some filename)) fun st => ?_
  refine h.guard ?_
  refine h.bind hexpected fun expected => ?_
  cases expected with
  | some fh =>
    refine h.bind (h.errContext (h.bind (h.look (.nameToHandle parentFd (some filename)) trivial)
      fun r => h.errno r)) fun actual => ?_
    split
    · exact h.ret ()
    · exact h.err _
  | none =>
    dsimp only
    split
    · exact h.err _
    · exact h.ret ()

/-- The readers and writers of the server only call into the host, or panic. -/
theorem Request.OverChain.transfers {C : CallClass} {W : ∀ {α : Type}, FsM α → Prop}
    (h : FileParts cfg C fun {α : Type} (p : NeutralM α) => W (liftM p : FsM α))
    (hpanic : ∀ {α : Type} (q : PanicSite), W (.panic q : FsM α))
    (hhost : ∀ c, W (liftM (Virtiofsd.host c) : FsM c.Ans)) {r : Request} (hr : r.OverChain) :
    RequestParts.Transfers W r := by
  have hvectored : ∀ t fd bufs off, W (liftM (Transfer.vectored t fd bufs off) : FsM _) := by
    intro t fd bufs off
    cases t with
    | read | write => exact hhost _
  have hloop := fun t fd => loop_of_panics h.toCompositional (fun q => hpanic (.here q))
    (hvectored t fd)
  cases r with
  | file r =>
    cases r with
    | read inode handle w size offset =>
      obtain ⟨c, rfl⟩ := hr
      exact fun fd => hloop _ _ _ _ _ _ _
    | write inode handle r size offset delayedWrite killPriv flags =>
      obtain ⟨c, rfl⟩ := hr
      exact fun fd append => hloop _ _ _ _ _ _ _
    | _ => trivial
  | _ => trivial

/-- **A request of either file system**, with a reader or a writer of the server's. -/
theorem RequestParts.request {W : ∀ {α : Type}, FsM α → Prop} (h : RequestParts cfg W)
    (hpanic : ∀ {α : Type} (q : PanicSite), W (.panic q : FsM α))
    (hhost : ∀ c, W (liftM (Virtiofsd.host c) : FsM c.Ans)) (x : Export) (r : Request)
    (hr : r.OverChain) : W (x.serve cfg r) := by
  have htransfers := hr.transfers h.files hpanic hhost
  cases x with
  | readWrite => exact h.serve r htransfers
  | readOnly => exact h.serveReadOnly r htransfers

namespace OffIndexParts

variable {C : CallClass} {W : ∀ {α : Type}, FsM α → Prop} (h : OffIndexParts C W)

include h

theorem neutral : Compositional fun {α : Type} (p : NeutralM α) => W (liftM p : FsM α) :=
  h.comap Act.neutral (fun _ r => r) .here

theorem calls : HostParts C fun {α : Type} (p : NeutralM α) => W (liftM p : FsM α) where
  toCompositional := h.neutral
  host := h.host

theorem files (cfg : Config) :
    FileParts cfg C fun {α : Type} (p : NeutralM α) => W (liftM p : FsM α) :=
  fileParts_of_panics h.neutral (fun q => h.panic (.here q)) h.host
    (fun q hq => h.query q hq.offIndex) h.newHandle

/-! ## 2. References -/

theorem dropRef (r : InodeRef) : W (StrongInodeReference.drop r) := h.refAct (.dropRef r) trivial

theorem dropInfo (info : Option InodeMigrationInfo) : W (dropInfo info) := by
  unfold Virtiofsd.dropInfo
  cases infoParent info with
  | some r => exact h.dropRef r
  | none => exact h.ret ()

theorem setInfo (r : InodeRef) (info : Option InodeMigrationInfo) : W (setInfo r info) :=
  h.bind (h.refAct (.exchangeInfo r info) trivial) fun old => h.dropInfo old

theorem newWithData (r : InodeRef) : W (StrongInodeReference.newWithData r) := by
  refine h.bind (h.refAct (.increment r) trivial) fun ok => ?_
  cases ok with
  | true => exact h.ret r
  | false => exact h.err _

theorem newRef (inode : Inode) : W (StrongInodeReference.new inode) := by
  refine h.bind (h.query (.get inode) trivial) fun found => ?_
  cases found with
  | some r => exact h.newWithData r
  | none => exact h.err _

theorem clone (r : InodeRef) : W (StrongInodeReference.clone r) := by
  refine h.bind (h.refAct (.increment r) trivial) fun ok => ?_
  cases ok with
  | true => exact h.ret r
  | false => exact h.panic _

theorem migrationInfo (r : InodeRef) (filename : Name) (f : FileOrHandle) :
    W (InodeMigrationInfo.new cfg r filename f) := by
  have hfiles := h.files cfg
  unfold InodeMigrationInfo.new
  split
  · have hcheck := hfiles.guard (c := (!isUtf8 filename) = true)
      (e := .other "Cannot convert filename into UTF-8") (hfiles.verifyHandle f)
    exact h.map (h.onErr hcheck (h.dropRef r))
  · refine h.map (h.ensuring ?_ (h.dropRef r))
    exact hfiles.bind (hfiles.errContext (hfiles.toSerializable f)) fun _ =>
      hfiles.map (hfiles.verifyHandle f)

theorem claimInode (handle : Option FileHandle) (ids : InodeIds) : W (claimInode handle ids) := by
  refine h.bind (h.refAct (.claim handle ids) trivial) fun found => ?_
  cases found with
  | found | notFound => exact h.ret _
  | dangling => exact h.panic _

theorem insertInode (p : InodeRef) (name : Name) (pathFd : Fd) (st : StatExt)
    (handle : Option FileHandle) : W (insertInode cfg p name pathFd st handle) := by
  have hfiles := h.files cfg
  refine h.bind (hfiles.newFileOrHandle pathFd handle) fun f => ?_
  have hinfo : W (newMigrationInfo cfg p name f) := by
    refine h.bind (h.query (.load .trackMigrationInfo) trivial) fun track => ?_
    cases track with
    | true =>
      exact h.bind (h.newWithData p) fun r => h.map (h.migrationInfo r name f)
    | false => exact h.ret _
  refine h.bind (h.onErr hinfo (hfiles.dropFile f)) fun info => ?_
  exact h.drawInode f st.ids st.st.mode info

theorem claims (cfg : Config) : ClaimParts cfg C W where
  toCompositional := h.toCompositional
  files := h.files cfg
  refAct r hr := h.refAct r (by cases r <;> first | exact trivial | exact hr)
  claimInode := h.claimInode
  insertInode := h.insertInode

/-! ## 3. Paths -/

theorem setPathIfNone (parent entry : InodeRef) (element : Name) :
    W (setPathIfNone cfg parent entry element) := by
  refine h.bind (h.query (.lockInfo entry) trivial) fun _ => ?_
  refine h.bind (h.query (.readInfo entry) trivial) fun info => ?_
  cases info with
  | some info => exact h.map (h.query (.unlockInfo entry) trivial)
  | none =>
    refine h.bind (h.attempt (h.migrationInfo parent element _)) fun r => ?_
    cases r with
    | error e => exact h.bind (h.query (.unlockInfo entry) trivial) fun _ => h.err _
    | ok info =>
      refine h.bind (h.setInfo entry _) fun _ => ?_
      exact h.map (h.query (.unlockInfo entry) trivial)

theorem updateInodeMigrationInfo (parent : InodeRef) (filename : Name) :
    W (updateInodeMigrationInfo cfg parent filename) := by
  refine h.bind (h.query (.load .trackMigrationInfo) trivial) fun track => ?_
  cases track with
  | false => exact h.ret ()
  | true =>
    refine h.bind ((h.claims cfg).tryLookup _ _) fun found => ?_
    cases found with
    | none => exact h.ret ()
    | some inode =>
      refine h.bind (h.onErr (h.newWithData parent) (h.dropRef inode)) fun parentRef => ?_
      refine h.bind (h.query (.lockInfo inode) trivial) fun _ => ?_
      refine h.bind (h.refAct (.exchangeInfo inode none) trivial) fun old => ?_
      split
      · refine h.bind (h.dropInfo old) fun _ => ?_
        refine h.bind (h.attempt (h.migrationInfo parentRef filename _)) fun info => ?_
        cases info with
        | error e =>
          refine h.bind (h.query (.unlockInfo inode) trivial) fun _ => ?_
          exact h.bind (h.dropRef inode) fun _ => h.err _
        | ok info =>
          refine h.bind (h.setInfo inode _) fun _ => ?_
          exact h.bind (h.query (.unlockInfo inode) trivial) fun _ => h.dropRef inode
      · refine h.bind (h.setInfo inode old) fun _ => ?_
        refine h.bind (h.query (.unlockInfo inode) trivial) fun _ => ?_
        exact h.bind (h.dropRef parentRef) fun _ => h.dropRef inode

end OffIndexParts

/-- A property that ids do not matter to: what draws and enters them is made of single actions
as well. -/
theorem OffIndexParts.of_actions {C : CallClass} {W : ∀ {α : Type}, FsM α → Prop}
    (h : Compositional W)
    (hpanic : ∀ {α : Type} (q : PanicSite), W (.panic q : FsM α))
    (hhost : ∀ c, C.Has c → W (liftM (Virtiofsd.host c) : FsM c.Ans))
    (hquery : ∀ q : Query, q.OffIndex → W (liftM (Virtiofsd.query q) : FsM q.Ans))
    (hdrawInode : W (liftM (Virtiofsd.query .fetchAddInode) : FsM Inode))
    (hdrawHandle : W (liftM (Virtiofsd.query .fetchAddHandle) : FsM Handle))
    (hinsertHandle : ∀ handle data,
      W (liftM (Virtiofsd.query (.insertHandle handle data)) : FsM Unit))
    (hrefAct : ∀ r : RefAct, r.Ordinary → W (Virtiofsd.refAct r))
    (hinsertInode : ∀ data info, W (Virtiofsd.refAct (.getOrInsert data info))) :
    OffIndexParts C W := by
  have hn := h.comap Act.neutral (fun _ r => r) PanicSite.here
  refine ⟨h, hpanic, hhost, hquery, hrefAct, fun inode fd type flags => ?_,
    fun f ids mode info => ?_⟩
  · refine hn.bind hdrawHandle fun handle => ?_
    refine hn.bind (hn.bind (hquery .allocateFd trivial) fun ok => ?_) fun _ => ?_
    · cases ok with
      | true => exact hn.ret ()
      | false => exact hn.err _
    · exact hn.bind (hinsertHandle handle _) fun _ => hn.ret handle
  · -- an `InodeData` that is not inserted is dropped
    have hfile : W (liftM (dropFile f) : FsM Unit) := by
      cases f with
      | file fd => exact hquery .releaseFd trivial
      | handle | invalid => exact hn.ret ()
    have hinfo : W (Virtiofsd.dropInfo info) := by
      unfold Virtiofsd.dropInfo
      cases infoParent info with
      | some r => exact hrefAct (.dropRef r) trivial
      | none => exact h.ret ()
    refine h.bind hdrawInode fun inode => ?_
    refine h.bind (hinsertInode ⟨inode, f, ids, mode⟩ info) fun result => ?_
    cases result with
    | inserted r => exact h.ret r
    | found r => exact h.bind hfile fun _ => h.bind hinfo fun _ => h.ret r
    | doubleUse => exact h.bind hfile fun _ => h.bind hinfo fun _ => h.err _
    | dangling => exact hpanic _

/-- A property of every single action. -/
theorem OffIndexParts.jobs {W : ∀ {α : Type}, FsM α → Prop} (h : OffIndexParts .offGuest W)
    (hhost : ∀ c, W (liftM (Virtiofsd.host c) : FsM c.Ans))
    (hdentry : ∀ op, W (liftM (Virtiofsd.query (.dentry op)) : FsM Unit))
    (hforget : ∀ inode count, W (Virtiofsd.refAct (.forgetOne inode count)))
    (hforgets : ∀ requests, W (Virtiofsd.refAct (.forgetMany requests))) : JobParts W := by
  have hlookups : LookupParts Config.default .offGuest W := ⟨h.claims _, hdentry⟩
  exact ⟨h, hhost, hdentry, fun _ _ => hlookups.forget (hforget _ _),
    fun _ => hlookups.batchForget (hforgets _)⟩

namespace JobParts

variable {W : ∀ {α : Type}, FsM α → Prop} (h : JobParts W)

include h

theorem lookups (cfg : Config) : LookupParts cfg .offGuest W where
  toClaimParts := h.claims cfg
  dentry := h.dentry

theorem followElement (parent : InodeRef) (element : Name) :
    W (followElement cfg parent element) := by
  refine h.bind (h.onErr ((h.lookups cfg).doLookup _ _) (h.dropRef parent)) fun entry => ?_
  refine h.bind (h.refAct (.adopt entry.inode) trivial) fun found => ?_
  cases found with
  | none => exact h.panic _
  | some inode =>
    refine h.bind (h.onErr (h.setPathIfNone parent inode element) (h.dropRef inode))
      fun moved => ?_
    cases moved with
    | true => exact h.ret _
    | false => exact h.map (h.dropRef parent)

theorem followPath : ∀ (elements : List Name) (parent : InodeRef),
    W (followPath cfg elements parent)
  | [], _ => h.ret _
  | element :: rest, parent =>
    h.bind (h.followElement parent element) fun entry => followPath rest entry

theorem setPathFromProcSelfFd (inode : InodeData) (sharedDirPath : Name) :
    W (setPathMigrationInfoFromProcSelfFd cfg inode sharedDirPath) := by
  refine h.bind ((h.files cfg).procRelativePath inode sharedDirPath) fun path => ?_
  cases path with
  | error e => exact h.ret _
  | ok path =>
    refine h.bind (h.attempt (h.newRef ROOT_ID)) fun root => ?_
    cases root with
    | error e => exact h.ret _
    | ok root =>
      refine h.bind (h.attempt (h.followPath _ root)) fun last => ?_
      cases last with
      | error e => exact h.ret _
      | ok last =>
        refine h.bind (h.dropRef last) fun _ => ?_
        split <;> exact h.ret _

theorem afterInvalidatingPathRefresh (inode : InodeData) :
    W (afterInvalidatingPathRefresh cfg inode) := by
  refine h.bind (h.query (.get ROOT_ID) trivial) fun root => ?_
  cases root with
  | none => exact h.err _
  | some root =>
    refine h.bind ((h.files cfg).getPath root.data) fun path => ?_
    cases path with
    | error e => exact h.err _
    | ok path =>
      refine h.bind (h.setPathFromProcSelfFd inode path) fun r => ?_
      cases r with
      | ok _ => exact h.ret ()
      | error e => exact h.err _

theorem afterInvalidatingPath (inode : InodeRef) : W (afterInvalidatingPath cfg inode) := by
  refine h.bind (h.query (.lockInfo inode) trivial) fun _ => ?_
  refine h.bind (h.refAct (.exchangeInfo inode none) trivial) fun old => ?_
  cases old with
  | none => exact h.bind (h.query (.unlockInfo inode) trivial) fun _ => h.dropRef inode
  | some info =>
    dsimp only
    split
    · refine h.bind (h.query (.unlockInfo inode) trivial) fun _ => ?_
      refine h.bind (h.attempt (h.afterInvalidatingPathRefresh inode.data)) fun r => ?_
      have hend := h.bind (h.dropInfo (some info)) fun _ => h.dropRef inode
      cases r with
      | ok _ => exact h.bind (h.query (.readInfo inode) trivial) fun _ => hend
      | error e => exact hend
    · refine h.bind (h.setInfo inode _) fun _ => ?_
      exact h.bind (h.query (.unlockInfo inode) trivial) fun _ => h.dropRef inode

theorem requests (cfg : Config) : RequestParts cfg W where
  toLookupParts := h.lookups cfg
  updateInodeMigrationInfo := h.updateInodeMigrationInfo
  afterInvalidatingPath := h.afterInvalidatingPath
  forget := h.forget
  batchForget := h.batchForget

/-! ## 4. Walking over the inode store -/

theorem checkPathPresence (info : InodeMigrationInfo) (d : InodeData) :
    W (liftM (info.checkPathPresence d) : FsM Unit) := by
  unfold InodeMigrationInfo.checkPathPresence
  split
  · exact h.ret ()
  · exact h.calls.checkPresence _ _ d info
  · exact h.ret ()

theorem recheck (r : InodeRef) (info : InodeMigrationInfo) : W (ProcPaths.recheck r info) := by
  refine h.bind (h.neutral.attempt (h.checkPathPresence info r.data)) fun present => ?_
  cases present with
  | ok _ => exact h.ret _
  | error e => exact h.map (h.setInfo r none)

theorem shouldUpdateInode (mode : ProcPaths.Mode) (r : InodeRef) :
    W (ProcPaths.shouldUpdateInode mode r) := by
  have hend : ∀ update : Bool, W ((liftM (Virtiofsd.query (.unlockInfo r)) : FsM Unit).bind
      fun _ => .ret update) := fun update => h.map (h.query _ trivial)
  refine h.bind (h.query (.lockInfo r) trivial) fun _ => ?_
  refine h.bind (h.query (.readInfo r) trivial) fun info => ?_
  cases mode <;> cases info
  case confirmPaths.some info => exact h.bind (h.recheck r info) hend
  case implicitPathCheck.some info => exact h.bind (h.recheck r info) hend
  all_goals exact hend _

theorem walk (mode : ProcPaths.Mode) (sharedDirPath : Name) :
    ∀ (fuel : Nat) (last : Option Inode), W (ProcPaths.walk cfg mode sharedDirPath fuel last)
  | 0, _ => h.ret _
  | fuel + 1, last => by
    refine h.bind (h.query (.nextAfter last) trivial) fun r => ?_
    cases r with
    | none => exact h.ret _
    | some r =>
      have hnext := walk mode sharedDirPath fuel (some r.data.inode)
      have hcancelled : W (liftM (ProcPaths.isCancelled mode) : FsM Bool) := by
        cases mode with
        | confirmPaths => exact h.ret _
        | _ => exact h.host .cancelled trivial
      refine h.bind hcancelled fun cancelled => ?_
      cases cancelled with
      | true => exact h.ret _
      | false =>
        refine h.bind (h.shouldUpdateInode mode r) fun update => ?_
        cases update with
        | false => exact hnext
        | true =>
          refine h.bind (h.setPathFromProcSelfFd r.data sharedDirPath) fun result => ?_
          split
          · exact h.ret _
          · exact hnext

theorem run (mode : ProcPaths.Mode) (fuel : Nat) : W (ProcPaths.run cfg mode fuel) := by
  refine h.bind (h.query (.get ROOT_ID) trivial) fun root => ?_
  cases root with
  | none =>
    refine h.bind (h.query .storeIsEmpty trivial) fun isEmpty => ?_
    cases isEmpty <;> exact h.ret _
  | some root =>
    refine h.bind ((h.files cfg).getPath root.data) fun path => ?_
    cases path with
    | error e => exact h.ret _
    | ok path => exact h.walk mode path fuel none

theorem construct (fuel : Nat) : W (ProcPaths.construct cfg fuel) := by
  refine h.bind (h.run .constructor fuel) fun result => ?_
  rcases result with (_ | _) | _ <;> exact h.ret _

theorem confirmPaths (fuel : Nat) : W (ProcPaths.confirmPaths cfg fuel) := by
  refine h.bind (h.run .confirmPaths fuel) fun result => ?_
  cases result with
  | ok _ => exact h.ret ()
  | error e => exact h.err _

/-! ## 5. Walking through the shared directory -/

theorem newPath (parentRef : InodeRef) (name : Name)
    {handle : NeutralM (Option SerializableFileHandle)}
    (hh : W (liftM handle : FsM (Option SerializableFileHandle))) :
    W (FindPaths.newPath parentRef name handle) := by
  refine h.bind (h.clone parentRef) fun parent => ?_
  exact h.map (h.onErr hh (h.dropRef parent))

theorem discoverKnown (parentRef : InodeRef) (name : Name) (pathFd : Fd) (st : StatExt)
    (handle : Option FileHandle) (inode : InodeRef) :
    W (FindPaths.discoverKnown cfg parentRef name pathFd st handle inode) := by
  have hfiles := h.files cfg
  have hhandle : W (liftM (FindPaths.entryHandle cfg pathFd handle) :
      FsM (Option SerializableFileHandle)) := by
    unfold FindPaths.entryHandle
    split
    · exact h.ret _
    · split
      · exact h.ret _
      · exact hfiles.bind (hfiles.host (.nameToHandle pathFd none) trivial) fun r =>
          hfiles.map (hfiles.errno r)
  refine h.bind (h.onErr (h.newPath parentRef name hhandle) (h.dropRef inode)) fun info => ?_
  refine h.bind (h.setInfo inode _) fun _ => ?_
  split
  · exact h.ret _
  · exact h.map (h.dropRef inode)

theorem discoverDirectory (parentRef : InodeRef) (name : Name) (pathFd : Fd) (st : StatExt)
    (handle : Option FileHandle) :
    W (FindPaths.discoverDirectory cfg parentRef name pathFd st handle) := by
  have hfiles := h.files cfg
  refine h.bind (hfiles.newFileOrHandle pathFd handle) fun f => ?_
  refine h.bind (h.onErr (h.newPath parentRef name (hfiles.verifyHandle f))
    (hfiles.dropFile f)) fun info => ?_
  exact h.drawInode f st.ids st.st.mode (some info)

theorem discover (parentRef : InodeRef) (dirfd : Fd) (name : Name) :
    W (FindPaths.discover cfg parentRef dirfd name) := by
  have hfiles := h.files cfg
  have hentry : W (liftM (FindPaths.openEntry cfg dirfd name) :
      FsM (Fd × StatExt × Option FileHandle)) :=
    hfiles.bind (hfiles.openRelativeTo trivial) fun fd => hfiles.bind (hfiles.statx fd none)
      fun st => hfiles.map (hfiles.getFileHandleOpt fd st)
  unfold FindPaths.discover
  split
  · exact h.err _
  · split
    · exact h.ret _
    · refine h.bind hentry fun x => ?_
      refine h.bind (h.claimInode _ _) fun found => ?_
      cases found with
      | some inode => exact h.discoverKnown _ _ _ _ _ inode
      | none =>
        dsimp only
        split
        · exact h.map (h.discoverDirectory _ _ _ _ _)
        · exact h.ret _

theorem discoverEntries (dir : InodeRef) (dirfd : Fd) :
    ∀ (entries : List LinuxDirent) (remaining : List InodeRef),
      W (FindPaths.discoverEntries cfg dir dirfd entries remaining)
  | [], _ => h.ret _
  | entry :: entries, remaining => by
    refine h.bind (h.host .cancelled trivial) fun cancelled => ?_
    cases cancelled with
    | true => exact h.ret _
    | false =>
      refine h.bind (h.attempt (h.discover dir dirfd entry.name)) fun found => ?_
      rcases found with e | _ | inode
      · exact discoverEntries dir dirfd entries remaining
      · exact discoverEntries dir dirfd entries remaining
      · exact discoverEntries dir dirfd entries (inode :: remaining)

theorem readEntries (dir : InodeRef) (dirfd : Fd) :
    ∀ (fuel : Nat) (remaining : List InodeRef),
      W (FindPaths.readEntries cfg dir dirfd fuel remaining)
  | 0, _ => h.ret _
  | fuel + 1, remaining => by
    refine h.bind (h.host (.getdents dirfd none 1024) trivial) fun r => ?_
    rcases r with e | _ | ⟨entry, entries⟩
    · exact h.ret _
    · exact h.ret _
    · refine h.bind (h.discoverEntries dir dirfd _ remaining) fun x => ?_
      rcases x with ⟨_ | _, remaining⟩
      · exact readEntries dir dirfd fuel remaining
      · exact h.ret _

theorem dropAll : ∀ refs : List InodeRef, W (FindPaths.dropAll refs)
  | [] => h.ret ()
  | r :: rs => h.bind (h.dropRef r) fun _ => dropAll rs

theorem recurseFrom : ∀ (fuel : Nat) (remaining : List InodeRef),
    W (FindPaths.recurseFrom cfg fuel remaining)
  | 0, remaining => h.dropAll _
  | _ + 1, [] => h.ret ()
  | fuel + 1, dir :: remaining => by
    have hfiles := h.files cfg
    have hopen := hfiles.openFile dir.data
      (CallClass.opens_offGuest (O_RDONLY ||| O_NOFOLLOW ||| O_CLOEXEC))
    refine h.bind (hfiles.attempt hopen) fun r => ?_
    cases r with
    | error e => exact h.bind (h.dropRef dir) fun _ => recurseFrom fuel remaining
    | ok dirfd =>
      refine h.bind (h.readEntries dir dirfd fuel remaining) fun x => ?_
      refine h.bind (h.dropRef dir) fun _ => ?_
      rcases x with ⟨_ | _, remaining⟩
      · exact recurseFrom fuel remaining
      · exact h.dropAll _

theorem findPaths (fuel : Nat) : W (FindPaths.construct cfg fuel) := by
  refine h.bind (h.attempt (h.newRef ROOT_ID)) fun root => ?_
  cases root with
  | ok root => exact h.recurseFrom fuel [root]
  | error e => exact h.ret ()

/-! ## 6. Collecting file handles, and the whole preparation -/

theorem setMigrationInfo (r : InodeRef) : W (FileHandles.setMigrationInfo cfg r) := by
  have hfiles := h.files cfg
  have hhandle : W (liftM (FileHandles.inodeHandle r.data) : FsM SerializableFileHandle) := by
    unfold FileHandles.inodeHandle
    split
    · rename_i fd _
      exact hfiles.errContext (hfiles.bind (hfiles.host (.nameToHandle fd none) trivial) fun r =>
        hfiles.map (hfiles.errno r))
    · exact h.ret _
    · exact h.err _
  exact h.bind hhandle fun _ => h.setInfo r _

theorem collect : ∀ (fuel : Nat) (last : Option Inode), W (FileHandles.collect cfg fuel last)
  | 0, _ => h.ret ()
  | fuel + 1, last => by
    refine h.bind (h.query (.nextAfter last) trivial) fun r => ?_
    cases r with
    | none => exact h.ret ()
    | some r =>
      refine h.bind (h.host .cancelled trivial) fun cancelled => ?_
      cases cancelled with
      | true => exact h.ret ()
      | false =>
        refine h.bind (h.query (.lockInfo r) trivial) fun _ => ?_
        refine h.bind (h.query (.readInfo r) trivial) fun info => ?_
        refine h.bind (h.query (.unlockInfo r) trivial) fun _ => ?_
        cases info with
        | some info => exact collect fuel _
        | none => exact h.bind (h.attempt (h.setMigrationInfo r)) fun _ => collect fuel _

/-- **The preparation**, but for the flag it sets. -/
theorem prepareSerialization (fuel : Nat)
    (hstore : W (liftM (Virtiofsd.query (.store .trackMigrationInfo true)) : FsM Unit)) :
    W (prepareSerialization cfg fuel) := by
  have hcheck : W (ProcPaths.checkPaths cfg fuel) :=
    h.map (h.run .implicitPathCheck fuel)
  refine h.bind (h.refAct .clearMigrationInfo trivial) fun _ => ?_
  refine h.bind hstore fun _ => ?_
  split
  · refine h.bind (h.construct fuel) fun fallBack => ?_
    cases fallBack with
    | true => exact h.bind (h.findPaths fuel) fun _ => hcheck
    | false => exact hcheck
  · exact h.bind (h.collect fuel none) fun _ => hcheck

/-- **The requests** of either file system. -/
theorem request (x : Export) (cfg : Config) (r : Request) (hr : r.OverChain) :
    W (x.serve cfg r) :=
  (h.requests cfg).request h.panic h.transfer x r hr

end JobParts

end Virtiofsd
