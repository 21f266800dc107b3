/-
  # What the pipeline watches (`main.rs`, `sandbox.rs`, `HostWatcher::new`)

  The file system serves the root directory of the sandbox.  The pipeline is given the path of
  the shared directory as the user has typed it, and uses it INSIDE the sandbox, and twice: the
  watcher resolves it, and the translator takes it for the prefix of every event path.

  So a sandbox with a root of its own leads the path astray, and without one the translator
  recognises event paths only if the path is spelled as the watcher spells it.  By then the
  seccomp filter is on, too, and it ends the process at the first inotify call by default.
-/
import Virtiofsd.Lib.FileTree
import Virtiofsd.NotifyInvalidate.Translate

namespace Virtiofsd

open Lib UnixPath List

/-! ## 1. Starting the daemon -/

/-- `SandboxMode`. -/
inductive SandboxMode where
  | namespace_
  | chroot
  | none_
  deriving DecidableEq

/-- `SeccompAction`; the default is `kill`. -/
inductive SeccompAction where
  | allow
  | kill
  | log
  | trap
  deriving DecidableEq

/-- Whether the process gets past an inotify call: there is none on the list of
`enable_seccomp`, which is not called for `allow`. -/
def SeccompAction.passesInotify : SeccompAction → Bool
  | .allow | .log => true
  | .kill | .trap => false

/-- `WatcherError`, but for the thread. -/
inductive WatcherError where
  | notify (message : String)
  | invalidPath
  deriving DecidableEq

/-- Why the daemon does not start. -/
inductive LaunchError where
  | sharedDirDoesNotExist
  | sandbox
  | fileSystem
  deriving DecidableEq

variable {tree : FileTree}

/-- The way into a new root directory: `chroot` and `chdir` to it, or `setup_mounts`. -/
def changeRoot (p : Process tree) (sharedDir : HostPath) : Except LaunchError (Process tree) :=
  match p.resolve sharedDir with
  | .error _ => .error .sandbox
  | .ok l =>
    if h : tree.node (p.root ++ l) = some .dir then
      .ok ⟨p.root ++ l, [], h, FileTree.solid_nil h⟩
    else .error .sandbox

/-- `Sandbox::enter`: what becomes of the process. -/
def SandboxMode.enter (mode : SandboxMode) (p : Process tree) (sharedDir : HostPath) :
    Except LaunchError (Process tree) :=
  match mode with
  | .namespace_ => changeRoot p sharedDir
  | .chroot => changeRoot p sharedDir
  | .none_ => .ok p

/-- `Sandbox::get_root_dir`. -/
def SandboxMode.getRootDir (mode : SandboxMode) (sharedDir : HostPath) : HostPath :=
  match mode with
  | .namespace_ | .chroot => [0x2f]
  | .none_ => sharedDir

/-- **`HostWatcher::new`**: the location that is watched, from the root directory of the
process.  `watch` is what the `notify` crate answers, and `none` stands for the end of the
process by the filter. -/
def HostWatcher.new (watch : Location → Except String Unit) (seccomp : SeccompAction)
    (p : Process tree) (sharedDir : HostPath) : Option (Except WatcherError Location) :=
  match p.resolve sharedDir with
  | .error _ => some (.error .invalidPath)
  | .ok canonical =>
    if tree.node (p.root ++ canonical) ≠ some .dir then some (.error .invalidPath)
    else if !seccomp.passesInotify then none
    else
      match watch (p.root ++ canonical) with
      | .error e => some (.error (.notify e))
      | .ok () => some (.ok canonical)

/-- The daemon, as far as the pipeline is concerned: where it is, the location it serves, what
it watches, and its translator. -/
structure Launched (tree : FileTree) where
  process : Process tree
  served : Location
  watched : Option (Except WatcherError Location)
  translator : Translator

/-- `is_dir() || is_file()`. -/
def isDirOrFile (node : Option Node) : Bool := node = some .dir || node = some .file

/-- **The start of the daemon** with `--notify-invalidate`. -/
def launch (watch : Location → Except String Unit) (p : Process tree) (mode : SandboxMode)
    (seccomp : SeccompAction) (sharedDir : HostPath) : Except LaunchError (Launched tree) :=
  match p.resolve sharedDir with
  | .error _ => .error .sharedDirDoesNotExist
  | .ok l =>
    if !isDirOrFile (tree.node (p.root ++ l)) then .error .sharedDirDoesNotExist
    else
      match mode.enter p sharedDir with
      | .error e => .error e
      | .ok process =>
        match process.resolve (mode.getRootDir sharedDir) with
        | .error _ => .error .fileSystem
        | .ok root => .ok
          { process := process
            served := process.root ++ root
            watched := HostWatcher.new watch seccomp process sharedDir
            translator := ⟨ROOT_ID, sharedDir⟩ }

/-! ## 2. The served tree is watched -/

/-- **The translator finds the objects** below the watched location by the paths of their
events. -/
def Translator.FindsBelow (t : Translator) (canonical : Location) : Prop :=
  ∀ rel : List Name, rel ≠ [] → (∀ name ∈ rel, ValidName name) →
    t.relativize (render (canonical ++ rel)) = some (rel.map .normal)

/-- **The served tree is watched and translated.** -/
def Launched.FollowsServed (d : Launched tree) : Prop :=
  ∃ canonical, d.watched = some (.ok canonical) ∧ d.process.root ++ canonical = d.served ∧
    d.translator.FindsBelow canonical

/-- The shared directory is given by an absolute path that has no symbolic links and no `..`. -/
def Plain (p : Process tree) (sharedDir : HostPath) : Prop :=
  ∃ names : List Name, components sharedDir = .rootDir :: names.map .normal ∧
    tree.Solid p.root names ∧ tree.node (p.root ++ names) = some .dir

/-- **When the watcher is started and the path means the same to all**: the filter does not
end the process, and there is no other root and the path is plain, or it is the root to begin
with. -/
def Agrees (p : Process tree) (mode : SandboxMode) (seccomp : SeccompAction)
    (sharedDir : HostPath) : Prop :=
  seccomp.passesInotify = true ∧ match mode with
  | .none_ => Plain p sharedDir
  | .namespace_ | .chroot => components sharedDir = [.rootDir]

variable {p : Process tree} {sharedDir : HostPath} {canonical l : Location}
  {watch : Location → Except String Unit} {seccomp : SeccompAction}

theorem validName_a : ∀ name ∈ [[(0x61 : UInt8)]], ValidName name := by
  intro name hname
  obtain rfl := mem_singleton.mp hname
  exact ⟨by decide, rfl⟩

/-- A translator finds objects below the location exactly if it has its canonical path. -/
theorem findsBelow_iff (hvalid : ∀ name ∈ canonical, ValidName name) {root : Inode} :
    (⟨root, sharedDir⟩ : Translator).FindsBelow canonical ↔
      components sharedDir = .rootDir :: canonical.map .normal := by
  have hcomponents : ∀ rel : List Name, rel ≠ [] → (∀ name ∈ rel, ValidName name) →
      components (render (canonical ++ rel)) = .rootDir :: (canonical ++ rel).map .normal := by
    intro rel hne hrel
    refine components_render (fun name hname => ?_) (by simp [hne])
    rcases mem_append.mp hname with hname | hname
    · exact hvalid name hname
    · exact hrel name hname
  constructor
  · intro h
    -- One object is enough to see the prefix.
    have hrel := stripPrefix_eq_some.mp (h [[0x61]] (by simp) validName_a)
    rw [hcomponents _ (by simp) validName_a, map_append, ← cons_append] at hrel
    exact (append_cancel_right hrel).symm
  · intro h rel hne hrel
    refine stripPrefix_eq_some.mpr ?_
    rw [hcomponents rel hne hrel, map_append, ← cons_append, h]

/-- The names of a location with a file are valid. -/
theorem valid_of_dir (h : tree.node (p.root ++ l) = some .dir) : ∀ name ∈ l, ValidName name :=
  fun name hname => tree.valid _ (by rw [h]; nofun) name (mem_append_right _ hname)

theorem hostWatcher_new_of_dir (hwatch : ∀ l, tree.node l = some .dir → watch l = .ok ())
    (hpasses : seccomp.passesInotify = true) (hresolve : p.resolve sharedDir = .ok l)
    (hdir : tree.node (p.root ++ l) = some .dir) :
    HostWatcher.new watch seccomp p sharedDir = some (.ok l) := by
  rw [HostWatcher.new, hresolve]
  dsimp only
  rw [if_neg (not_not.mpr hdir), hpasses, hwatch _ hdir]
  rfl

/-- The location that is watched is where the path leads. -/
theorem hostWatcher_new_ok (h : HostWatcher.new watch seccomp p sharedDir = some (.ok canonical)) :
    seccomp.passesInotify = true ∧ p.resolve sharedDir = .ok canonical ∧
      tree.node (p.root ++ canonical) = some .dir := by
  unfold HostWatcher.new at h
  split at h
  · cases h
  · rename_i l hresolve
    split at h
    · cases h
    · rename_i hdir
      split at h
      · cases h
      · rename_i hpasses
        split at h
        · cases h
        · cases h
          exact ⟨by simpa using hpasses, hresolve, not_not.mp hdir⟩

/-- What a daemon that has started looks like. -/
theorem launch_ok {mode : SandboxMode} {d : Launched tree}
    (h : launch watch p mode seccomp sharedDir = .ok d) :
    ∃ root, mode.enter p sharedDir = .ok d.process ∧
      d.process.resolve (mode.getRootDir sharedDir) = .ok root ∧
      d = ⟨d.process, d.process.root ++ root, HostWatcher.new watch seccomp d.process sharedDir,
        ⟨ROOT_ID, sharedDir⟩⟩ := by
  unfold launch at h
  split at h
  · cases h
  · split at h
    · cases h
    · split at h
      · cases h
      · rename_i process henter
        split at h
        · cases h
        · rename_i root hroot
          cases h
          exact ⟨root, henter, hroot, rfl⟩

/-- Without a sandbox. -/
theorem followsServed_none (hwatch : ∀ l, tree.node l = some .dir → watch l = .ok ())
    (hresolve : p.resolve sharedDir = .ok l) :
    Launched.FollowsServed ⟨p, p.root ++ l, HostWatcher.new watch seccomp p sharedDir,
      ⟨ROOT_ID, sharedDir⟩⟩ ↔ Agrees p .none_ seccomp sharedDir := by
  constructor
  · rintro ⟨canonical, hnew, -, hfinds⟩
    obtain ⟨hpasses, hresolve', hdir⟩ := hostWatcher_new_ok hnew
    exact ⟨hpasses, canonical, (findsBelow_iff (valid_of_dir hdir)).mp hfinds,
      Process.resolve_solid hresolve', hdir⟩
  · rintro ⟨hpasses, names, hcomponents, hsolid, hdir⟩
    obtain rfl : l = names := Process.resolve_names hcomponents hsolid hresolve
    exact ⟨l, hostWatcher_new_of_dir hwatch hpasses hresolve hdir, rfl,
      (findsBelow_iff (valid_of_dir hdir)).mpr hcomponents⟩

/-- In a root directory of its own. -/
theorem followsServed_root (hwatch : ∀ l, tree.node l = some .dir → watch l = .ok ()) :
    Launched.FollowsServed ⟨p, p.root ++ [], HostWatcher.new watch seccomp p sharedDir,
      ⟨ROOT_ID, sharedDir⟩⟩ ↔ seccomp.passesInotify = true ∧ components sharedDir = [.rootDir] := by
  have hroot : tree.node (p.root ++ []) = some .dir := by rw [append_nil, p.root_dir]
  constructor
  · rintro ⟨canonical, hnew, hserved, hfinds⟩
    obtain rfl : canonical = [] := append_cancel_left hserved
    exact ⟨(hostWatcher_new_ok hnew).1, (findsBelow_iff (valid_of_dir hroot)).mp hfinds⟩
  · rintro ⟨hpasses, hcomponents⟩
    exact ⟨[], hostWatcher_new_of_dir hwatch hpasses (Process.resolve_root hcomponents) hroot, rfl,
      (findsBelow_iff (valid_of_dir hroot)).mpr hcomponents⟩

/-- **The pipeline follows the served tree** exactly if the filter lets it watch, and the path
of the shared directory means the same to all who use it.  `hwatch` leaves out the limits of
the `notify` crate. -/
theorem launch_followsServed_iff (tree : FileTree) (p : Process tree) (mode : SandboxMode)
    (seccomp : SeccompAction) (sharedDir : HostPath) (watch : Location → Except String Unit)
    (hwatch : ∀ l, tree.node l = some .dir → watch l = .ok ()) (d : Launched tree)
    (h : launch watch p mode seccomp sharedDir = .ok d) :
    d.FollowsServed ↔ Agrees p mode seccomp sharedDir := by
  obtain ⟨root, henter, hroot, hd⟩ := launch_ok h
  rw [hd]
  -- The root directory of a sandbox leads to itself.
  have hslash : ∀ q : Process tree, q.resolve [0x2f] = .ok [] := fun q =>
    Process.resolve_root (by decide)
  cases mode with
  | none_ =>
    rw [SandboxMode.enter] at henter
    rw [← Except.ok.inj henter] at hroot ⊢
    exact followsServed_none hwatch hroot
  | chroot | namespace_ =>
    obtain rfl : [] = root := Except.ok.inj ((hslash _).symm.trans hroot)
    exact followsServed_root hwatch

/-- A tree with one directory, `/s`. -/
def oneDirectory : FileTree where
  node l := if l = [] ∨ l = [[0x73]] then some .dir else none
  valid l h name hname := by
    by_cases hl : l = [] ∨ l = [[0x73]]
    · rcases hl with rfl | rfl
      · cases hname
      · obtain rfl := mem_singleton.mp hname
        exact ⟨by decide, rfl⟩
    · exact absurd (if_neg hl) h

/-- A process in its root directory. -/
def oneDirectory.process : Process oneDirectory := ⟨[], [], rfl, FileTree.solid_nil rfl⟩

/-- With `chroot`, the path of the shared directory leads nowhere; without, a relative path is
watched, and all events are discarded.  With the default filter, no path is watched. -/
theorem launch_not_followsServed :
    (∃ d, launch (fun _ => .ok ()) oneDirectory.process .chroot .allow [0x2f, 0x73] = .ok d ∧
      d.watched = some (.error .invalidPath) ∧ ¬ d.FollowsServed) ∧
    (∃ d, launch (fun _ => .ok ()) oneDirectory.process .none_ .allow [0x73] = .ok d ∧
      d.watched = some (.ok [[0x73]]) ∧
      d.translator.relativize (render ([[0x73]] ++ [[0x61]])) = none ∧ ¬ d.FollowsServed) ∧
    (∃ d, launch (fun _ => .ok ()) oneDirectory.process .none_ .kill [0x2f, 0x73] = .ok d ∧
      d.watched = none ∧ ¬ d.FollowsServed) := by
  refine ⟨⟨_, rfl, rfl, ?_⟩, ⟨_, rfl, rfl, rfl, ?_⟩, ⟨_, rfl, rfl, ?_⟩⟩
  · rintro ⟨canonical, hnew, -⟩
    cases hnew
  · rintro ⟨canonical, hnew, -, hfinds⟩
    obtain rfl : [[0x73]] = canonical := Except.ok.inj (Option.some.inj hnew)
    cases hfinds [[0x61]] (by simp) validName_a
  · rintro ⟨canonical, hnew, -⟩
    cases hnew

theorem launch_followsServed_iff_none :
    ∃ d, launch (fun _ => .ok ()) oneDirectory.process .none_ .allow [0x2f, 0x73] = .ok d ∧
      (d.FollowsServed ↔ Agrees oneDirectory.process .none_ .allow [0x2f, 0x73]) :=
  ⟨_, rfl, launch_followsServed_iff oneDirectory oneDirectory.process .none_ .allow [0x2f, 0x73]
    (fun _ => .ok ()) (fun _ _ => rfl) _ rfl⟩

end Virtiofsd
