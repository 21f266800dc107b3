/-
  # Host events as notifications for the guest (`notify_invalidate/translate.rs`)

  The translator resolves the paths of a host event through the dentry index, and sends the
  guest what it has to forget: an inode, or a name in a directory.  When events were lost, it
  sends an invalidation for every inode on record.

  For an event with paths below the shared directory `RelEvent.documented` says which
  notifications these are.  The translator attempts exactly these, in this order, with two
  exceptions: it stops at the first one that cannot be sent, and a `Modify` of the shared
  directory itself invalidates the root.
-/
import Virtiofsd.Passthrough.DentryIndex
import Virtiofsd.Queues

namespace Virtiofsd

open Lib List Prog UnixPath

/-! ## 1. Events and notifications -/

/-- A path on the host. -/
abbrev HostPath := List UInt8

/-- `HostEventKind`. -/
inductive HostEventKind where
  | modify (path : HostPath)
  | create (path : HostPath)
  | remove (path : HostPath)
  | rename (src dst : Option HostPath)
  | overflow
  deriving DecidableEq

/-- `HostEvent`. -/
structure HostEvent where
  kind : HostEventKind
  deriving DecidableEq

/-- `Notification`. -/
inductive Notification where
  | invalInode (inode : Inode)
  | invalEntry (parent : Inode) (name : Name)
  deriving DecidableEq

/-- `TranslateError`. -/
inductive TranslateError where
  | notifier (err : NotifierError)
  | io (err : IoError)

/-- What the translator asks of the index, and of the notifier. -/
inductive TranslateAct where
  | resolvePath (root : Inode) (path : List UnixPath.Component)
  | allInodes
  | send (notification : Notification)

abbrev TranslateAct.Ans : TranslateAct → Type
  | resolvePath _ _ => Inode × List Name
  | allInodes => List Inode
  | send _ => Except NotifierError Unit

abbrev TranslateM := Prog TranslateAct TranslateAct.Ans TranslateError Empty

def translateAct (a : TranslateAct) : TranslateM a.Ans := perform a

/-- `self.notifier.send(..)?`. -/
def notify (n : Notification) : TranslateM Unit := do
  match ← translateAct (.send n) with
  | .ok () => return ()
  | .error e => .err (.notifier e)

/-! ## 2. The translator -/

/-- `Translator`, but for what it shares with others. -/
structure Translator where
  rootInode : Inode
  sharedDir : HostPath

namespace Translator

variable (t : Translator)

/-- `resolve_path` from the root of the shared directory. -/
def resolve (rel : List UnixPath.Component) : TranslateM (Inode × List Name) :=
  translateAct (.resolvePath t.rootInode rel)

/-- `relativize`. -/
def relativize (hostPath : HostPath) : Option (List UnixPath.Component) :=
  stripPrefix (components hostPath) (components t.sharedDir)

/-- `handle_modify`. -/
def handleModify (hostPath : HostPath) : TranslateM Unit :=
  match t.relativize hostPath with
  | none => return ()
  | some rel => do
    let (inode, remaining) ← t.resolve rel
    if remaining.isEmpty then notify (.invalInode inode)

/-- `handle_parent_change`. -/
def handleParentChange (hostPath : HostPath) : TranslateM Unit :=
  match t.relativize hostPath with
  | none => return ()
  | some rel =>
    let parentRel := (parent rel).getD []
    match fileName rel with
    | none => return ()
    | some leafName => do
      let (parentInode, remaining) ← t.resolve parentRel
      if !remaining.isEmpty then return ()
      notify (.invalEntry parentInode leafName)

/-- The inode of a path, if it is cached and not the root. -/
def cachedLeaf (hostPath : HostPath) : TranslateM (Option Inode) :=
  match t.relativize hostPath with
  | none => return none
  | some rel => do
    let (inode, remaining) ← t.resolve rel
    return if remaining.isEmpty && inode != t.rootInode then some inode else none

/-- The last step of `handle_remove` and `handle_rename`. -/
def sendInode : Option Inode → TranslateM Unit
  | none => return ()
  | some inode => notify (.invalInode inode)

/-- `handle_remove`. -/
def handleRemove (hostPath : HostPath) : TranslateM Unit := do
  t.handleParentChange hostPath
  let leaf ← t.cachedLeaf hostPath
  sendInode leaf

/-- What is done for a path that may be missing. -/
def ifPresent {α : Type} (none' : α) (f : HostPath → TranslateM α) : Option HostPath → TranslateM α
  | none => return none'
  | some path => f path

/-- `handle_rename`: the inode is looked up before the names are invalidated. -/
def handleRename (src dst : Option HostPath) : TranslateM Unit := do
  let renamedInode ← ifPresent none t.cachedLeaf src
  ifPresent () t.handleParentChange src
  ifPresent () t.handleParentChange dst
  sendInode renamedInode

/-- The loop of `bulk_invalidate`: what cannot be sent is skipped. -/
def bulkLoop : List Inode → TranslateM Unit
  | [] => return ()
  | inode :: inodes => do
    if inode = t.rootInode then bulkLoop inodes
    else
      let _ ← translateAct (.send (.invalInode inode))
      bulkLoop inodes

/-- `bulk_invalidate`. -/
def bulkInvalidate : TranslateM Unit := do
  let inodes ← translateAct .allInodes
  t.bulkLoop inodes

/-- **`handle`.** -/
def handle (event : HostEvent) : TranslateM Unit :=
  match event.kind with
  | .modify path => t.handleModify path
  | .create path => t.handleParentChange path
  | .remove path => t.handleRemove path
  | .rename src dst => t.handleRename src dst
  | .overflow => t.bulkInvalidate

end Translator

/-! ## 3. Running it -/

/-- **The index, and what becomes of the notifications**: those that were attempted, and which
of them fail. -/
structure Delivery where
  index : DentryIndex
  fails : Nat → Option NotifierError
  attempted : List Notification

namespace Delivery

/-- The answer to an attempt. -/
def outcome (w : Delivery) : Except NotifierError Unit :=
  match w.fails w.attempted.length with
  | none => .ok ()
  | some e => .error e

/-- One more attempt. -/
def attempt (w : Delivery) (n : Notification) : Delivery :=
  { w with attempted := w.attempted ++ [n] }

def perform : (a : TranslateAct) → Delivery → a.Ans × Delivery
  | .resolvePath root path, w => (w.index.resolvePath root path, w)
  | .allInodes, w => (w.index.allInodes, w)
  | .send n, w => (w.outcome, w.attempt n)

/-- Attempts, until one fails. -/
def sendAll : List Notification → Delivery → Outcome TranslateError Empty Unit × Delivery
  | [], w => (.ok (), w)
  | n :: ns, w =>
    match w.outcome with
    | .ok () => sendAll ns (w.attempt n)
    | .error e => (.err (.notifier e), w.attempt n)

variable {w w' : Delivery} {n : Notification} {ns ms : List Notification}

variable {α : Type} {i : Inode} {p : Option HostPath}

theorem sendAll_append : ∀ (ns ms : List Notification) (w : Delivery),
    sendAll (ns ++ ms) w = match sendAll ns w with
      | (.ok (), w') => sendAll ms w'
      | r => r
  | [], ms, w => rfl
  | n :: ns, ms, w => by
    rw [cons_append, sendAll, sendAll]
    cases w.outcome with
    | ok u => exact sendAll_append ns ms _
    | error e => rfl

theorem sendAll_index : ∀ (ns : List Notification) (w : Delivery),
    (sendAll ns w).2.index = w.index
  | [], w => rfl
  | n :: ns, w => by
    rw [sendAll]
    cases w.outcome with
    | ok u => exact sendAll_index ns _
    | error e => rfl

theorem translateAct_run (a : TranslateAct) (k : a.Ans → TranslateM α) (w : Delivery) :
    ((translateAct a).bind k).run perform w =
      (k (perform a w).1).run perform (perform a w).2 := rfl

theorem notify_run (n : Notification) (w : Delivery) :
    (notify n).run perform w = sendAll [n] w := by
  unfold notify
  rw [bind_eq, sendAll, translateAct_run]
  dsimp only [perform]
  cases w.outcome with
  | ok | error => rfl

/-- Going on after some attempts. -/
theorem run_bind_sendAll {p : TranslateM Unit} {k : Unit → TranslateM Unit}
    (hp : p.run perform w = sendAll ns w)
    (hk : ∀ w', w'.index = w.index → (k ()).run perform w' = sendAll ms w') :
    (p.bind k).run perform w = sendAll (ns ++ ms) w := by
  rw [run_bind, hp, sendAll_append]
  have hindex := sendAll_index ns w
  generalize sendAll ns w = r at hindex
  obtain ⟨o, w'⟩ := r
  cases o with
  | ok u => exact hk w' hindex
  | err | panic => rfl

end Delivery

namespace Translator

variable {t : Translator} {w : Delivery} {d : DentryIndex}

/-- What `handle_parent_change` sends. -/
def entrySide (t : Translator) (d : DentryIndex) (path : HostPath) : List Notification :=
  match t.relativize path with
  | none => []
  | some rel =>
    match fileName rel with
    | none => []
    | some name =>
      ((d.walk t.rootInode (names ((parent rel).getD []))).map
        (Notification.invalEntry · name)).toList

/-- The inode that a path leads to. -/
def leaf (t : Translator) (d : DentryIndex) (path : HostPath) : Option Inode :=
  (t.relativize path).bind fun rel => d.walk t.rootInode (names rel)

/-- What is sent for the inode of a path that was removed or renamed. -/
def inodeSide (t : Translator) (d : DentryIndex) (path : HostPath) : List Notification :=
  (((t.leaf d path).filter (· ≠ t.rootInode)).map Notification.invalInode).toList

/-- **What is sent for an event**, if nothing fails. -/
def planned (t : Translator) (d : DentryIndex) : HostEventKind → List Notification
  | .modify path => ((t.leaf d path).map Notification.invalInode).toList
  | .create path => t.entrySide d path
  | .remove path => t.entrySide d path ++ t.inodeSide d path
  | .rename src dst => src.elim [] (t.entrySide d) ++
      (dst.elim [] (t.entrySide d) ++ src.elim [] (t.inodeSide d))
  | .overflow => (d.allInodes.filter (· ≠ t.rootInode)).map .invalInode

theorem resolve_run (rel : List UnixPath.Component) (k : Inode × List Name → TranslateM α)
    (w : Delivery) :
    ((t.resolve rel).bind k).run Delivery.perform w =
      (k (w.index.resolvePath t.rootInode rel)).run Delivery.perform w := rfl

variable (path : HostPath)

theorem handleModify_run (w : Delivery) :
    (t.handleModify path).run Delivery.perform w =
      Delivery.sendAll ((t.leaf w.index path).map Notification.invalInode).toList w := by
  unfold handleModify leaf
  cases t.relativize path with
  | none => rfl
  | some rel =>
    dsimp only [Option.bind_some]
    rw [bind_eq, resolve_run]
    rcases w.index.resolvePath_cases t.rootInode rel with ⟨i, hwalk, hres⟩ | ⟨hwalk, hrest⟩
    · rw [hres, hwalk]
      exact Delivery.notify_run _ w
    · rw [hwalk]
      rw [if_neg (by simpa using hrest)]
      rfl

theorem handleParentChange_run (w : Delivery) :
    (t.handleParentChange path).run Delivery.perform w =
      Delivery.sendAll (t.entrySide w.index path) w := by
  unfold handleParentChange entrySide
  cases t.relativize path with
  | none => rfl
  | some rel =>
    dsimp only
    cases fileName rel with
    | none => rfl
    | some name =>
      dsimp only
      rw [bind_eq, resolve_run]
      rcases w.index.resolvePath_cases t.rootInode ((parent rel).getD []) with
        ⟨i, hwalk, hres⟩ | ⟨hwalk, hrest⟩
      · rw [hres, hwalk]
        exact Delivery.notify_run _ w
      · rw [hwalk]
        rw [if_pos (by simpa using hrest)]
        rfl

theorem cachedLeaf_run (k : Option Inode → TranslateM α) (w : Delivery) :
    ((t.cachedLeaf path).bind k).run Delivery.perform w =
      (k ((t.leaf w.index path).filter (· ≠ t.rootInode))).run Delivery.perform w := by
  unfold cachedLeaf leaf
  cases t.relativize path with
  | none => rfl
  | some rel =>
    dsimp only [Option.bind_some]
    rw [bind_eq, bind_assoc, resolve_run]
    rcases w.index.resolvePath_cases t.rootInode rel with ⟨i, hwalk, hres⟩ | ⟨hwalk, hrest⟩
    · rw [hres, hwalk]
      by_cases hi : i = t.rootInode <;> simp [hi, Option.filter]
    · rw [hwalk]
      simp [hrest]

theorem sendInode_run (i : Option Inode) (w : Delivery) :
    (sendInode i).run Delivery.perform w =
      Delivery.sendAll (i.map Notification.invalInode).toList w := by
  cases i with
  | none => rfl
  | some i => exact Delivery.notify_run _ w

theorem ifPresent_handleParentChange_run (path : Option HostPath) (w : Delivery) :
    (ifPresent () t.handleParentChange path).run Delivery.perform w =
      Delivery.sendAll (path.elim [] (t.entrySide w.index)) w := by
  cases path with
  | none => rfl
  | some path => exact handleParentChange_run path w

theorem handleRemove_run (w : Delivery) :
    (t.handleRemove path).run Delivery.perform w =
      Delivery.sendAll (t.planned w.index (.remove path)) w := by
  unfold handleRemove
  simp only [bind_eq]
  refine Delivery.run_bind_sendAll (handleParentChange_run path w) fun w' hindex => ?_
  rw [cachedLeaf_run, sendInode_run, hindex]
  rfl

theorem handleRename_run (src dst : Option HostPath) (w : Delivery) :
    (t.handleRename src dst).run Delivery.perform w =
      Delivery.sendAll (t.planned w.index (.rename src dst)) w := by
  -- After the look-up the three sends follow, each against the same index.
  have hsends : ∀ i : Option Inode,
      (((ifPresent () t.handleParentChange src).bind fun _ =>
        (ifPresent () t.handleParentChange dst).bind fun _ => sendInode i)).run
          Delivery.perform w =
        Delivery.sendAll (src.elim [] (t.entrySide w.index) ++
          (dst.elim [] (t.entrySide w.index) ++ (i.map Notification.invalInode).toList)) w := by
    intro i
    refine Delivery.run_bind_sendAll (ifPresent_handleParentChange_run src w) fun w' hindex => ?_
    rw [← hindex]
    exact Delivery.run_bind_sendAll (ifPresent_handleParentChange_run dst w')
      fun w'' _ => sendInode_run i w''
  unfold handleRename
  simp only [bind_eq]
  cases src with
  | none => exact hsends none
  | some path =>
    rw [ifPresent, cachedLeaf_run]
    exact hsends _

theorem bulkLoop_run : ∀ (inodes : List Inode) (w : Delivery),
    (t.bulkLoop inodes).run Delivery.perform w = (.ok (), { w with
      attempted := w.attempted ++
        (inodes.filter (· ≠ t.rootInode)).map Notification.invalInode })
  | [], w => by simp [bulkLoop]
  | inode :: inodes, w => by
    rw [bulkLoop]
    by_cases hroot : inode = t.rootInode
    · rw [if_pos hroot, bulkLoop_run inodes, filter_cons_of_neg (by simpa using hroot)]
    · rw [if_neg hroot, bind_eq, filter_cons_of_pos (by simpa using hroot)]
      rw [Delivery.translateAct_run, bulkLoop_run inodes]
      simp [Delivery.perform, Delivery.attempt]

/-- **What `handle` attempts**: what is planned, up to the first failure; after an overflow all
of it. -/
theorem handle_run (event : HostEvent) (w : Delivery) :
    (t.handle event).run Delivery.perform w =
      if event.kind = .overflow then (.ok (), { w with
        attempted := w.attempted ++ t.planned w.index event.kind })
      else Delivery.sendAll (t.planned w.index event.kind) w := by
  unfold handle
  cases event.kind with
  | modify path => exact handleModify_run path w
  | create path => exact handleParentChange_run path w
  | remove path => exact handleRemove_run path w
  | rename src dst => exact handleRename_run src dst w
  | overflow => exact bulkLoop_run _ w

end Translator

/-- How far a list of attempts gets. -/
theorem Delivery.sendAll_attempted : ∀ (ns : List Notification) (w : Delivery),
    ∃ m ≤ ns.length, (sendAll ns w).2.attempted = w.attempted ++ ns.take m ∧
      (m = ns.length ↔ ∀ i, i + 1 < ns.length → w.fails (w.attempted.length + i) = none)
  | [], w => ⟨0, le_rfl, (append_nil _).symm,
      ⟨fun _ i hi => absurd hi (Nat.not_lt_zero _), fun _ => rfl⟩⟩
  | n :: ns, w => by
    rw [sendAll]
    unfold outcome
    cases hfails : w.fails w.attempted.length with
    | none =>
      obtain ⟨m, hm, hattempted, hall⟩ := sendAll_attempted ns (w.attempt n)
      refine ⟨m + 1, Nat.succ_le_succ hm, ?_, ?_⟩
      · refine hattempted.trans ?_
        rw [attempt, append_assoc, take_succ_cons]
        rfl
      · rw [length_cons, Nat.add_right_cancel_iff, hall]
        have hlen : (w.attempt n).attempted.length = w.attempted.length + 1 := by
          rw [attempt, length_append, length_singleton]
        constructor
        · intro h i hi
          cases i with
          | zero => exact hfails
          | succ i =>
            have hi' := h i (Nat.lt_of_succ_lt_succ hi)
            rw [hlen, Nat.add_assoc, Nat.add_comm 1 i] at hi'
            exact hi'
        · intro h i hi
          rw [hlen, Nat.add_assoc, Nat.add_comm 1 i]
          exact h (i + 1) (Nat.succ_lt_succ hi)
    | some e =>
      refine ⟨1, Nat.succ_le_succ (Nat.zero_le _), rfl, ?_⟩
      cases ns with
      | nil => exact ⟨fun _ i hi => absurd (Nat.lt_of_succ_lt_succ hi) (Nat.not_lt_zero i),
          fun _ => rfl⟩
      | cons n' ns =>
        refine ⟨fun h => by simp at h, fun h => ?_⟩
        have h₀ := h 0 (Nat.succ_lt_succ (Nat.succ_pos _))
        rw [Nat.add_zero, hfails] at h₀
        cases h₀

/-! ## 4. The documented policy -/

/-- **An event below the shared directory**, by the names on its paths. -/
inductive RelEvent where
  | modify (rel : List Name)
  | create (rel : List Name)
  | remove (rel : List Name)
  | rename (src dst : Option (List Name))
  | overflow

/-- The inodes that some name leads to. -/
def DentryIndex.indexed (d : DentryIndex) : List Inode :=
  (d.forward.entries.map Sigma.snd).dedup

namespace RelEvent

variable (d : DentryIndex) (root : Inode)

/-- The entry side: the last component of the path, in the directory that the rest of the path
resolves to. -/
def entry (rel : List Name) : List Notification :=
  match rel.getLast?, d.walk root rel.dropLast with
  | some name, some parent => [.invalEntry parent name]
  | _, _ => []

/-- The inode that the path resolves to, if that is not the root. -/
def inode (rel : List Name) : List Notification :=
  match d.walk root rel with
  | some i => if i = root then [] else [.invalInode i]
  | none => []

/-- **The documented notifications of an event.** -/
def documented : RelEvent → List Notification
  | modify rel => inode d root rel
  | create rel => entry d root rel
  | remove rel => entry d root rel ++ inode d root rel
  | rename src dst =>
    src.elim [] (entry d root) ++ (dst.elim [] (entry d root) ++ src.elim [] (inode d root))
  | overflow => (d.indexed.filter (· ≠ root)).map .invalInode

/-- Nothing gets in the way of the documented notifications: no attempt but the last fails, and
it is not the root that was modified. -/
def Undisturbed (fails : Nat → Option NotifierError) : RelEvent → Prop
  | modify rel => d.walk root rel ≠ some root
  | overflow => True
  | e => ∀ i, i + 1 < (e.documented d root).length → fails i = none

end RelEvent

namespace Translator

/-- `path` leads from the shared directory to `rel`. -/
def Below (t : Translator) (path : HostPath) (rel : List Name) : Prop :=
  components path = components t.sharedDir ++ rel.map .normal

/-- The paths of an event, as seen from the shared directory. -/
inductive Describes (t : Translator) : RelEvent → HostEventKind → Prop
  | modify {path : HostPath} {rel : List Name} (h : t.Below path rel) :
      Describes t (.modify rel) (.modify path)
  | create {path : HostPath} {rel : List Name} (h : t.Below path rel) :
      Describes t (.create rel) (.create path)
  | remove {path : HostPath} {rel : List Name} (h : t.Below path rel) :
      Describes t (.remove rel) (.remove path)
  | rename {srcPath dstPath : Option HostPath} {src dst : Option (List Name)}
      (hsrc : Option.Rel t.Below srcPath src) (hdst : Option.Rel t.Below dstPath dst) :
      Describes t (.rename src dst) (.rename srcPath dstPath)
  | overflow : Describes t .overflow .overflow

variable {t : Translator} {d : DentryIndex} {path : HostPath} {rel : List Name}

theorem Below.relativize (h : t.Below path rel) : t.relativize path = some (rel.map .normal) :=
  stripPrefix_eq_some.mpr h

theorem Below.leaf (h : t.Below path rel) : t.leaf d path = d.walk t.rootInode rel := by
  unfold Translator.leaf
  rw [h.relativize, Option.bind_some, names_map_normal]

theorem Below.entrySide (h : t.Below path rel) :
    t.entrySide d path = RelEvent.entry d t.rootInode rel := by
  unfold Translator.entrySide RelEvent.entry
  rw [h.relativize]
  rcases eq_nil_or_concat rel with rfl | ⟨dir, name, rfl⟩
  · rfl
  · rw [concat_eq_append, dropLast_concat,
      getLast?_append_of_ne_nil _ (cons_ne_nil _ _)]
    dsimp only
    rw [fileName_names, parent_names, Option.getD_some,
      names_map_normal]
    cases d.walk t.rootInode dir with
    | none | some => rfl

theorem Below.inodeSide (h : t.Below path rel) :
    t.inodeSide d path = RelEvent.inode d t.rootInode rel := by
  unfold Translator.inodeSide RelEvent.inode
  rw [h.leaf]
  cases d.walk t.rootInode rel with
  | none => rfl
  | some i =>
    by_cases hi : i = t.rootInode <;> simp [hi, Option.filter]

theorem elim_entrySide {r : Option (List Name)} (h : Option.Rel t.Below p r) :
    p.elim [] (t.entrySide d) = r.elim [] (RelEvent.entry d t.rootInode) := by
  cases h with
  | none => rfl
  | some h => exact h.entrySide

theorem elim_inodeSide {r : Option (List Name)} (h : Option.Rel t.Below p r) :
    p.elim [] (t.inodeSide d) = r.elim [] (RelEvent.inode d t.rootInode) := by
  cases h with
  | none => rfl
  | some h => exact h.inodeSide

theorem perm_indexed (ops : List DentryOp) :
    (ops.foldl DentryIndex.apply .empty).allInodes.Perm
      (ops.foldl DentryIndex.apply .empty).indexed := by
  have h := DentryIndex.Consistent.empty.foldl ops
  set d := ops.foldl DentryIndex.apply .empty
  have hnodup : d.allInodes.Nodup :=
    (perm_insertionSort (· ≤ ·) d.reverse.keys).nodup_iff.mpr d.reverse.keys_nodup
  refine (perm_ext_iff_of_nodup hnodup (nodup_dedup _)).mpr fun c => ?_
  rw [h.mem_allInodes, mem_dedup, mem_map]
  constructor
  · rintro ⟨parent, nm, hget⟩
    exact ⟨⟨(parent, nm), c⟩, AList.mem_lookup_iff.mp hget, rfl⟩
  · rintro ⟨⟨k, c'⟩, hmem, rfl⟩
    exact ⟨k.1, k.2, AList.mem_lookup_iff.mpr hmem⟩

/-- What is planned is what is documented, but for a modified root. -/
theorem Describes.planned {e : RelEvent} {kind : HostEventKind} (h : t.Describes e kind)
    (hkind : kind ≠ .overflow)
    (hmodify : ∀ rel, e = .modify rel → d.walk t.rootInode rel ≠ some t.rootInode) :
    t.planned d kind = e.documented d t.rootInode := by
  cases h with
  | @modify path rel h =>
    unfold Translator.planned RelEvent.documented RelEvent.inode
    dsimp only
    rw [h.leaf]
    cases hwalk : d.walk t.rootInode rel with
    | none => rfl
    | some i =>
      have hi : i ≠ t.rootInode := fun hi => hmodify rel rfl (hi ▸ hwalk)
      dsimp only
      rw [if_neg hi]
      rfl
  | create h => exact h.entrySide
  | remove h => exact congrArg₂ (· ++ ·) h.entrySide h.inodeSide
  | rename hsrc hdst =>
    exact congrArg₂ (· ++ ·) (elim_entrySide hsrc)
      (congrArg₂ (· ++ ·) (elim_entrySide hdst) (elim_inodeSide hsrc))
  | overflow => exact absurd rfl hkind

/-- What is attempted for an event, from an index and the attempts that fail. -/
def attempts (t : Translator) (d : DentryIndex) (fails : Nat → Option NotifierError)
    (event : HostEvent) : List Notification :=
  ((t.handle event).run Delivery.perform ⟨d, fails, []⟩).2.attempted

theorem attempts_overflow (fails : Nat → Option NotifierError) :
    t.attempts d fails ⟨.overflow⟩ = t.planned d .overflow := by
  unfold attempts
  rw [handle_run, if_pos rfl]
  rfl

theorem attempts_of_ne (event : HostEvent) (h : event.kind ≠ .overflow)
    (fails : Nat → Option NotifierError) :
    ∃ m ≤ (t.planned d event.kind).length,
      t.attempts d fails event = (t.planned d event.kind).take m ∧
        (m = (t.planned d event.kind).length ↔
          ∀ i, i + 1 < (t.planned d event.kind).length → fails i = none) := by
  unfold attempts
  rw [handle_run, if_neg h]
  obtain ⟨m, hm, hattempted, hall⟩ :=
    Delivery.sendAll_attempted (t.planned d event.kind) ⟨d, fails, []⟩
  refine ⟨m, hm, hattempted, hall.trans ?_⟩
  simp only [length_nil, Nat.zero_add]

/-- Some attempts in order are all of them only if none is missing. -/
theorem take_perm_self {l : List α} {m : Nat} (hm : m ≤ l.length) :
    (l.take m).Perm l ↔ m = l.length := by
  constructor
  · intro h
    have hlen := h.length_eq
    rw [length_take, Nat.min_eq_left hm] at hlen
    exact hlen
  · rintro rfl
    rw [take_length]

/-- A modified root is invalidated. -/
theorem Below.attempts_root (h : t.Below path rel)
    (hwalk : d.walk t.rootInode rel = some t.rootInode) (fails : Nat → Option NotifierError) :
    t.attempts d fails ⟨.modify path⟩ = [.invalInode t.rootInode] := by
  have hplanned : t.planned d (.modify path) = [.invalInode t.rootInode] := by
    unfold Translator.planned
    dsimp only
    rw [h.leaf, hwalk]
    rfl
  obtain ⟨m, -, hattempts, hall⟩ :=
    attempts_of_ne (t := t) (d := d) ⟨.modify path⟩ nofun fails
  dsimp only at hattempts hall
  rw [hplanned] at hattempts hall
  have hm : m = 1 := hall.mpr fun i hi => absurd hi (by simp)
  rw [hattempts, hm]
  rfl

/-- **The translator attempts the documented notifications, and only these, exactly when nothing
gets in the way**: no send fails but the last one of the event, and it is not the root that was
modified.  A bulk invalidation attempts them all. -/
theorem attempts_documented_iff (t : Translator) (ops : List DentryOp)
    (fails : Nat → Option NotifierError) (e : RelEvent) (event : HostEvent)
    (h : t.Describes e event.kind) :
    let d := ops.foldl DentryIndex.apply .empty
    (t.attempts d fails event).Perm (e.documented d t.rootInode) ↔
      e.Undisturbed d t.rootInode fails := by
  intro d
  obtain ⟨kind⟩ := event
  by_cases hkind : kind = .overflow
  · subst hkind
    cases h
    rw [attempts_overflow]
    exact iff_of_true (((perm_indexed ops).filter _).map _) trivial
  by_cases hroot : ∃ rel, e = .modify rel ∧ d.walk t.rootInode rel = some t.rootInode
  · obtain ⟨rel, rfl, hwalk⟩ := hroot
    refine iff_of_false (fun hperm => ?_) (fun hne => hne hwalk)
    cases h with
    | modify h =>
      have hdocumented : RelEvent.documented d t.rootInode (.modify rel) = [] := by
        unfold RelEvent.documented RelEvent.inode
        dsimp only
        rw [hwalk]
        exact if_pos rfl
      rw [h.attempts_root hwalk, hdocumented] at hperm
      exact absurd hperm.length_eq (by simp)
  · have hmodify : ∀ rel, e = .modify rel → d.walk t.rootInode rel ≠ some t.rootInode :=
      fun rel he hwalk => hroot ⟨rel, he, hwalk⟩
    have hplanned := h.planned hkind hmodify
    obtain ⟨m, hm, hattempts, hall⟩ := attempts_of_ne (t := t) (d := d) ⟨kind⟩ hkind fails
    dsimp only at hm hall hattempts
    rw [hplanned] at hm hall hattempts
    rw [hattempts, take_perm_self hm, hall]
    cases h with
    | modify h =>
      refine iff_of_true (fun i hi => ?_) (hmodify _ rfl)
      unfold RelEvent.documented RelEvent.inode at hi
      dsimp only at hi
      split at hi
      · split at hi <;> exact absurd hi (by simp)
      · exact absurd hi (by simp)
    | create | remove | rename => exact Iff.rfl
    | overflow => exact absurd rfl hkind

/-- A removed file of which only the name is invalidated, as that attempt fails; and a root that
is invalidated. -/
theorem attempts_undocumented :
    let t : Translator := ⟨1, [0x2f, 0x73]⟩
    let d := [DentryOp.insert 1 [0x61] 2].foldl DentryIndex.apply .empty
    (¬ (t.attempts d (fun i => if i = 0 then some .queueFull else none)
        ⟨.remove [0x2f, 0x73, 0x2f, 0x61]⟩).Perm
          (RelEvent.documented d 1 (.remove [[0x61]])) ∧
      t.Describes (.remove [[0x61]]) (.remove [0x2f, 0x73, 0x2f, 0x61])) ∧
    (t.attempts d (fun _ => none) ⟨.modify [0x2f, 0x73]⟩ = [.invalInode 1] ∧
      RelEvent.documented d 1 (.modify []) = [] ∧
      t.Describes (.modify []) (.modify [0x2f, 0x73])) := by
  refine ⟨⟨by decide, .remove (by unfold Below; decide)⟩, by decide, by decide, .modify ?_⟩
  unfold Below
  decide

theorem attempts_documented_iff_remove :
    let t : Translator := ⟨1, [0x2f, 0x73]⟩
    let d := [DentryOp.insert 1 [0x61] 2].foldl DentryIndex.apply .empty
    (t.attempts d (fun i => if i = 1 then some .queueFull else none)
        ⟨.remove [0x2f, 0x73, 0x2f, 0x61]⟩).Perm
          (RelEvent.documented d 1 (.remove [[0x61]])) ↔
      RelEvent.Undisturbed d 1 (fun i => if i = 1 then some .queueFull else none)
        (.remove [[0x61]]) :=
  attempts_documented_iff ⟨1, [0x2f, 0x73]⟩ [DentryOp.insert 1 [0x61] 2] _ (.remove [[0x61]])
    ⟨.remove [0x2f, 0x73, 0x2f, 0x61]⟩ (.remove (by unfold Below; decide))

/-! ## 5. What a bulk invalidation covers -/

/-- A notification that others make superfluous: a name in a directory, if the directory is
invalidated. -/
def Implied (sent : List Notification) : Notification → Prop
  | .invalInode inode => .invalInode inode ∈ sent
  | .invalEntry parent nm => .invalEntry parent nm ∈ sent ∨ .invalInode parent ∈ sent

/-- The directory of a path with a last name. -/
def directory (t : Translator) (d : DentryIndex) (path : HostPath) : Option Inode :=
  (t.relativize path).bind fun rel => (fileName rel).bind fun _ =>
    d.walk t.rootInode (names ((parent rel).getD []))

/-- **The event changes the root**: a name in it, or the root itself. -/
def ChangesRoot (t : Translator) (d : DentryIndex) : HostEventKind → Prop
  | .modify path => t.leaf d path = some t.rootInode
  | .create path => t.directory d path = some t.rootInode
  | .remove path => t.directory d path = some t.rootInode
  | .rename src dst => ∃ path, (src = some path ∨ dst = some path) ∧
      t.directory d path = some t.rootInode
  | .overflow => False

/-- The inode that a notification is about. -/
def target : Notification → Inode
  | .invalInode inode => inode
  | .invalEntry parent _ => parent

theorem map_target_entrySide :
    (t.entrySide d path).map target = (t.directory d path).toList := by
  unfold entrySide directory
  cases t.relativize path with
  | none => rfl
  | some rel =>
    dsimp only [Option.bind_some]
    cases fileName rel with
    | none => rfl
    | some nm =>
      dsimp only [Option.bind_some]
      cases d.walk t.rootInode (names ((parent rel).getD [])) with
      | none | some => rfl

theorem map_target_invalInode (i : Option Inode) :
    (i.map Notification.invalInode).toList.map target = i.toList := by
  cases i with
  | none | some => rfl

/-- An inode that a path leads to, or its directory, is the root or on record. -/
theorem mem_of_leaf (h : d.Consistent) (hi : t.leaf d path = some i) :
    i = t.rootInode ∨ i ∈ d.allInodes := by
  obtain ⟨rel, -, hwalk⟩ := Option.bind_eq_some_iff.mp hi
  exact h.walk_mem hwalk

theorem mem_of_directory (h : d.Consistent) (hi : t.directory d path = some i) :
    i = t.rootInode ∨ i ∈ d.allInodes := by
  obtain ⟨rel, -, hi⟩ := Option.bind_eq_some_iff.mp hi
  obtain ⟨nm, -, hwalk⟩ := Option.bind_eq_some_iff.mp hi
  exact h.walk_mem hwalk

/-- The inodes that the notifications of an event are about. -/
def Targets (t : Translator) (d : DentryIndex) (i : Inode) : HostEventKind → Prop
  | .modify path => t.leaf d path = some i
  | .create path => t.directory d path = some i
  | .remove path => t.directory d path = some i ∨ t.leaf d path = some i ∧ i ≠ t.rootInode
  | .rename src dst => (∃ path, (src = some path ∨ dst = some path) ∧ t.directory d path = some i) ∨
      ∃ path, src = some path ∧ t.leaf d path = some i ∧ i ≠ t.rootInode
  | .overflow => i ∈ d.allInodes ∧ i ≠ t.rootInode

theorem mem_map_target_inodeSide :
    i ∈ (t.inodeSide d path).map target ↔ t.leaf d path = some i ∧ i ≠ t.rootInode := by
  unfold inodeSide
  rw [map_target_invalInode, Option.mem_toList, Option.filter_eq_some_iff]
  simp

theorem mem_map_target_elim {f : HostPath → List Notification} :
    i ∈ (p.elim [] f).map target ↔ ∃ path, p = some path ∧ i ∈ (f path).map target := by
  cases p with
  | none | some => simp

theorem mem_map_target_entrySide :
    i ∈ (t.entrySide d path).map target ↔ t.directory d path = some i := by
  rw [map_target_entrySide, Option.mem_toList]

theorem mem_map_target_planned (kind : HostEventKind) :
    i ∈ (t.planned d kind).map target ↔ t.Targets d i kind := by
  cases kind with
  | modify path =>
    unfold planned Targets
    rw [map_target_invalInode, Option.mem_toList]
  | create path => exact mem_map_target_entrySide
  | remove path =>
    unfold planned Targets
    rw [map_append, mem_append, mem_map_target_entrySide, mem_map_target_inodeSide]
  | rename src dst =>
    unfold planned Targets
    simp only [map_append, mem_append, mem_map_target_elim, mem_map_target_entrySide,
      mem_map_target_inodeSide]
    constructor
    · rintro (⟨path, hsrc, hi⟩ | ⟨path, hdst, hi⟩ | hi)
      · exact .inl ⟨path, .inl hsrc, hi⟩
      · exact .inl ⟨path, .inr hdst, hi⟩
      · exact .inr hi
    · rintro (⟨path, hsrc | hdst, hi⟩ | hi)
      · exact .inl ⟨path, hsrc, hi⟩
      · exact .inr (.inl ⟨path, hdst, hi⟩)
      · exact .inr (.inr hi)
  | overflow =>
    unfold planned Targets
    rw [map_map]
    show i ∈ List.map id _ ↔ _
    rw [map_id, mem_filter]
    simp

theorem Targets.mem (h : d.Consistent) {kind : HostEventKind} (hi : t.Targets d i kind) :
    i = t.rootInode ∨ i ∈ d.allInodes := by
  cases kind with
  | modify path => exact mem_of_leaf h hi
  | create path => exact mem_of_directory h hi
  | remove path =>
    rcases hi with hi | ⟨hi, -⟩
    · exact mem_of_directory h hi
    · exact mem_of_leaf h hi
  | rename src dst =>
    rcases hi with ⟨path, -, hi⟩ | ⟨path, -, hi, -⟩
    · exact mem_of_directory h hi
    · exact mem_of_leaf h hi
  | overflow => exact .inr hi.1

theorem targets_root (kind : HostEventKind) :
    t.Targets d t.rootInode kind ↔ t.ChangesRoot d kind := by
  cases kind <;> simp [Targets, ChangesRoot]

/-- A bulk invalidation makes up for what is about an inode on record, but the root. -/
theorem implied_bulk {n : Notification} :
    Implied (t.planned d .overflow) n ↔ target n ∈ d.allInodes ∧ target n ≠ t.rootInode := by
  have hinode : ∀ i, Notification.invalInode i ∈ t.planned d .overflow ↔
      i ∈ d.allInodes ∧ i ≠ t.rootInode := by
    intro i
    simp [planned]
  cases n with
  | invalInode i => exact hinode i
  | invalEntry parent nm =>
    have hentry : Notification.invalEntry parent nm ∉ t.planned d .overflow := by
      simp [planned]
    exact (or_iff_right hentry).trans (hinode parent)

/-- Without failures all that is planned is sent. -/
theorem attempts_planned (event : HostEvent) :
    t.attempts d (fun _ => none) event = t.planned d event.kind := by
  by_cases h : event.kind = .overflow
  · obtain ⟨kind⟩ := event
    subst h
    exact attempts_overflow _
  · obtain ⟨m, -, hattempts, hall⟩ := attempts_of_ne (t := t) (d := d) event h fun _ => none
    rw [hattempts, hall.mpr fun _ _ => rfl, take_length]

/-- **A bulk invalidation makes up for the events that were lost, exactly if none of them
changed the root**, which it spares. -/
theorem bulk_covers_iff (t : Translator) (ops : List DentryOp) (events : List HostEvent) :
    let d := ops.foldl DentryIndex.apply .empty
    (∀ event ∈ events, ∀ n ∈ t.attempts d (fun _ => none) event,
        Implied (t.attempts d (fun _ => none) ⟨.overflow⟩) n) ↔
      ∀ event ∈ events, ¬ t.ChangesRoot d event.kind := by
  intro d
  have h : d.Consistent := DentryIndex.Consistent.empty.foldl ops
  refine forall₂_congr fun event _ => ?_
  rw [attempts_overflow, attempts_planned, ← targets_root, ← mem_map_target_planned]
  constructor
  · intro himplied hmem
    obtain ⟨n, hn, hroot⟩ := List.mem_map.mp hmem
    exact (implied_bulk.mp (himplied n hn)).2 hroot
  · intro hroot n hn
    have htarget := List.mem_map_of_mem (f := target) hn
    have hne : target n ≠ t.rootInode := fun heq => hroot (heq ▸ htarget)
    rcases ((mem_map_target_planned _).mp htarget).mem h with heq | hmem
    · exact absurd heq hne
    · exact implied_bulk.mpr ⟨hmem, hne⟩

/-- A file that was created in the root, which the guest does not hear of. -/
theorem bulk_misses_create :
    let t : Translator := ⟨1, [0x2f, 0x73]⟩
    let d := [DentryOp.insert 1 [0x61] 2].foldl DentryIndex.apply .empty
    t.attempts d (fun _ => none) ⟨.create [0x2f, 0x73, 0x2f, 0x62]⟩ = [.invalEntry 1 [0x62]] ∧
      t.attempts d (fun _ => none) ⟨.overflow⟩ = [.invalInode 2] ∧
      ¬ Implied (t.attempts d (fun _ => none) ⟨.overflow⟩) (.invalEntry 1 [0x62]) := by
  refine ⟨by decide, by decide, ?_⟩
  unfold Implied
  decide

end Translator

end Virtiofsd
