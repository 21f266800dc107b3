/-
  # Paths relative to the shared directory (`relative_path`)

  For a migration, the absolute paths that the kernel reports for inodes and mounts are made
  relative to the shared directory.  `relative_path` takes the BYTES of the directory off the
  front of the path.  What is meant is a matter of components: `/srv2/x` starts with the bytes of
  `/srv`, but it is not in that directory, and `2/x` is not a path in it.

  So the answer is right exactly if a path that has the directory in front goes on with a slash,
  and a path in the directory is written with the directory in front (`relative_path_iff`).  The
  latter is so for all canonical paths.
-/
import Virtiofsd.Migration.Prepare
import Virtiofsd.Lib.UnixPath

namespace Virtiofsd

open Lib Lib.UnixPath List

/-- **`MountPathsBuilder::get_mount_path`**, with the answer of `get_mount_root`. -/
def MountPathsBuilder.getMountPath (mountRoot : Except IoError Name) (sharedDirPath : Name) :
    Except IoError Name :=
  match mountRoot with
  | .error e => .error e
  | .ok path =>
    if 0 ∈ path then .error (.other "Cannot convert path to C string")
    else
      match relativePath path sharedDirPath with
      -- a mount outside of the shared directory: the directory itself
      | none => .ok [0x2e]
      | some rel =>
        if !isUtf8 rel then .error (.other "Path cannot be converted to UTF-8")
        else if rel = [] then .ok [0x2e] else .ok rel

/-! ## 1. What is asked -/

/-- The path is that of the directory, or lies inside. -/
def Inside (path dir : Name) : Prop := components dir <+: components path

/-- **The path is made relative to the directory.** -/
structure Relativised (path dir : Name) : Prop where
  accepts : (relativePath path dir).isSome = true ↔ Inside path dir
  joins : ∀ rest, relativePath path dir = some rest →
    components (join dir rest) = components path
  relative : ∀ rest, relativePath path dir = some rest → rest.head? ≠ some 0x2f

/-- **An inode or a mount with this path is reported as outside of the directory.** -/
structure ReportedOutside (path dir : Name) : Prop where
  inode : ∀ (S : Type) (h : (a : NeutralAct) → S → a.Ans × S) (s s' : S) (d : InodeData),
    d.getPath.run h s = (.ok (.ok path), s') →
      ∃ e s'', (procRelativePath d dir).run h s = (.ok (.error e), s'') ∧
        e.intoInner = .other "Path is outside the directory"
  mount : MountPathsBuilder.getMountPath (.ok path) dir = .ok [0x2e]

/-- The path goes on with a new component. -/
def Continues (path dir : Name) : Prop :=
  path = dir ∨ dir.getLast? = some 0x2f ∨ ∃ rest, path = dir ++ 0x2f :: rest

/-! ## 2. Bytes and components -/

section

variable {path dir : Name}

theorem relativePath_eq_some {rest : Name} : relativePath path dir = some rest ↔
    ∃ tail, path = dir ++ tail ∧ rest = tail.dropWhile (· = 0x2f) := by
  unfold relativePath
  constructor
  · intro h
    split at h
    · next hfront =>
      obtain ⟨tail, rfl⟩ := isPrefixOf_iff_prefix.mp hfront
      rw [drop_left] at h
      exact ⟨tail, rfl, (Option.some.inj h).symm⟩
    · cases h
  · rintro ⟨tail, rfl, rfl⟩
    have hprefix := isPrefixOf_iff_prefix.mpr (prefix_append dir tail)
    rw [if_pos hprefix, drop_left]

theorem relativePath_isSome : (relativePath path dir).isSome = true ↔ dir <+: path := by
  rw [Option.isSome_iff_exists]
  constructor
  · rintro ⟨rest, h⟩
    obtain ⟨tail, rfl, -⟩ := relativePath_eq_some.mp h
    exact prefix_append _ _
  · rintro ⟨tail, rfl⟩
    exact ⟨_, relativePath_eq_some.mpr ⟨tail, rfl, rfl⟩⟩

/-- Behind the directory, components are as they are. -/
theorem body_of_continues {tail : Name} (h : Continues (dir ++ tail) dir) :
    body (dir ++ tail) = body dir ++ body tail := by
  rcases h with h | h | ⟨rest, h⟩
  · rw [append_right_eq_self.mp h, append_nil, body_nil, append_nil]
  · exact body_append_of_getLast? h tail
  · rw [append_cancel_left h, body_append_slash, body_slash]

theorem inside_iff (hpath : path.head? = some 0x2f) (hdir : dir.head? = some 0x2f) :
    Inside path dir ↔ body dir <+: body path := by
  rw [Inside, components_of_absolute hpath, components_of_absolute hdir, prefix_cons_inj]

theorem relativised_of (hpath : path.head? = some 0x2f) (hdir : dir.head? = some 0x2f)
    (hcontinues : dir <+: path → Continues path dir) (hwritten : Inside path dir → dir <+: path) :
    Relativised path dir where
  accepts := by
    rw [relativePath_isSome]
    refine ⟨?_, hwritten⟩
    rintro ⟨tail, rfl⟩
    rw [inside_iff hpath hdir, body_of_continues (hcontinues (prefix_append _ _))]
    exact prefix_append _ _
  joins := by
    intro rest hrest
    obtain ⟨tail, rfl, rfl⟩ := relativePath_eq_some.mp hrest
    rw [components_of_absolute (head?_join hdir _), components_of_absolute hpath, body_join,
      body_dropWhile_slash, body_of_continues (hcontinues (prefix_append _ _))]
  relative := by
    intro rest hrest
    obtain ⟨tail, -, rfl⟩ := relativePath_eq_some.mp hrest
    intro hhead
    have hdrop := head?_dropWhile_not (· = (0x2f : UInt8)) tail
    rw [hhead] at hdrop
    simp at hdrop

/-- A path that goes on within a name is made relative to something else. -/
theorem Relativised.continues (hpath : path.head? = some 0x2f) (hdir : dir.head? = some 0x2f)
    (h : Relativised path dir) (hfront : dir <+: path) : Continues path dir := by
  obtain ⟨tail, rfl⟩ := hfront
  by_contra hnot
  obtain ⟨hne, hlast, hslash⟩ : tail ≠ [] ∧ dir.getLast? ≠ some 0x2f ∧
      tail.head? ≠ some 0x2f := by
    refine ⟨?_, fun hlast => hnot (.inr (.inl hlast)), fun hhead => hnot (.inr (.inr ?_))⟩
    · rintro rfl
      exact hnot (.inl (append_nil dir))
    · obtain ⟨rest, rfl⟩ : ∃ rest, tail = 0x2f :: rest :=
        ⟨tail.tail, (cons_head?_tail (Option.mem_def.mpr hhead)).symm⟩
      exact ⟨rest, rfl⟩
  have hjoin := h.joins _ (relativePath_eq_some.mpr ⟨tail, rfl, rfl⟩)
  rw [components_of_absolute (head?_join hdir _), components_of_absolute hpath, body_join,
    body_dropWhile_slash, cons.injEq] at hjoin
  exact body_append_ne hdir hlast hslash hne hjoin.2.symm

/-! ## 3. Reports -/

theorem getFile_run {S : Type} (h : (a : NeutralAct) → S → a.Ans × S) (s : S) (d : InodeData) :
    ∃ r s', d.getFile.attempt.run h s = (.ok r, s') := by
  unfold InodeData.getFile
  cases d.fileOrHandle with
  | file | invalid => exact ⟨_, _, rfl⟩
  | handle fh =>
    change ∃ r s', (Prog.act (.host (.openByHandle fh O_PATH)) fun r => (errno r).attempt).run h s =
      (.ok r, s')
    rw [Prog.run_act]
    cases (h (.host (.openByHandle fh O_PATH)) s).1 with
    | ok | error => exact ⟨_, _, rfl⟩

theorem linkCountAbove_run {S : Type} (h : (a : NeutralAct) → S → a.Ans × S) (s : S)
    (d : InodeData) (bound : Nat) : ∃ b s', (linkCountAbove d bound).run h s = (.ok b, s') := by
  obtain ⟨r, s₁, hrun⟩ := getFile_run h s d
  unfold linkCountAbove
  simp only [Prog.bind_eq, Prog.run_bind_of_ok h hrun]
  cases r with
  | error e => exact ⟨false, s₁, rfl⟩
  | ok fd =>
    dsimp only [host, Prog.perform, Prog.bind]
    rw [Prog.run_act]
    cases (h (.host (.statx fd none)) s₁).1 with
    | error | ok => exact ⟨_, _, rfl⟩

theorem reportedOutside (hnul : 0 ∉ path) (h : relativePath path dir = none) :
    ReportedOutside path dir where
  inode := by
    intro S handler s s' d hrun
    obtain ⟨b, s'', hcount⟩ := linkCountAbove_run handler s' d 1
    refine ⟨.of b (.other "Path is outside the directory"), s'', ?_, ?_⟩
    · unfold procRelativePath
      refine (Prog.run_bind_of_ok handler hrun).trans ?_
      dsimp only
      rw [h]
      exact Prog.run_bind_of_ok handler hcount
    · cases b <;> rfl
  mount := by
    rw [MountPathsBuilder.getMountPath]
    simp [hnul, h]

/-! ## 4. The result -/

theorem relativised_reported_iff (hpath : path.head? = some 0x2f) (hdir : dir.head? = some 0x2f)
    (hnul : 0 ∉ path) :
    Relativised path dir ∧ (¬ Inside path dir → ReportedOutside path dir) ↔
      (dir <+: path → Continues path dir) ∧ (Inside path dir → dir <+: path) := by
  constructor
  · rintro ⟨hrel, -⟩
    exact ⟨hrel.continues hpath hdir, fun hin => relativePath_isSome.mp (hrel.accepts.mpr hin)⟩
  · rintro ⟨hcontinues, hwritten⟩
    have hrel := relativised_of hpath hdir hcontinues hwritten
    refine ⟨hrel, fun hout => reportedOutside hnul ?_⟩
    rw [← Option.not_isSome_iff_eq_none, hrel.accepts]
    exact hout

theorem inside_canonical_front {names dirNames : List Name}
    (hnames : ∀ name ∈ names, ValidName name) (hdirNames : ∀ name ∈ dirNames, ValidName name)
    (h : Inside (canonical names) (canonical dirNames)) :
    canonical dirNames <+: canonical names := by
  rw [Inside, components_canonical hnames, components_canonical hdirNames,
    prefix_cons_inj] at h
  refine AbsolutePath.path_front ?_
  exact (prefix_map_iff_of_injective fun a b hab => Component.normal.inj hab).mp h

end

/-- **Paths are made relative at component boundaries, and what is outside is reported as
outside, exactly if** a path that has the bytes of the directory in front goes on with a new
component, and a path inside has them in front.  For canonical paths the second is no condition. -/
theorem relative_path_iff (path dir : Name) :
    (path.head? = some 0x2f → dir.head? = some 0x2f → 0 ∉ path →
      (Relativised path dir ∧ (¬ Inside path dir → ReportedOutside path dir) ↔
        (dir <+: path → Continues path dir) ∧ (Inside path dir → dir <+: path))) ∧
    ∀ names dirNames : List Name, (∀ name ∈ names, ValidName name ∧ 0 ∉ name) →
      (∀ name ∈ dirNames, ValidName name) →
        (Relativised (canonical names) (canonical dirNames) ∧
          (¬ Inside (canonical names) (canonical dirNames) →
            ReportedOutside (canonical names) (canonical dirNames)) ↔
        (canonical dirNames <+: canonical names →
          Continues (canonical names) (canonical dirNames))) := by
  refine ⟨fun hpath hdir hnul => relativised_reported_iff hpath hdir hnul, ?_⟩
  intro names dirNames hnames hdirNames
  have hnul : 0 ∉ canonical names := AbsolutePath.notMem_path (by decide)
    fun name hname => (hnames name hname).2
  have hpath : (canonical names).head? = some 0x2f := AbsolutePath.head?_path names
  have hdir : (canonical dirNames).head? = some 0x2f := AbsolutePath.head?_path dirNames
  rw [relativised_reported_iff hpath hdir hnul]
  exact and_iff_left (inside_canonical_front (fun name hname => (hnames name hname).1) hdirNames)

/-- The name `srv`. -/
def srv : Name := [0x73, 0x72, 0x76]

/-- The name `srv2`. -/
def srv2 : Name := [0x73, 0x72, 0x76, 0x32]

/-- **A sibling that is taken for a part of the directory.**  The inode `/srv2/x` is reported under
the path `2/x` of the shared directory `/srv`, and so is a mount there. -/
theorem sibling_taken_for_inside :
    ¬ Inside (canonical [srv2, [0x78]]) (canonical [srv]) ∧
      relativePath (canonical [srv2, [0x78]]) (canonical [srv]) = some [0x32, 0x2f, 0x78] ∧
      MountPathsBuilder.getMountPath (.ok (canonical [srv2, [0x78]])) (canonical [srv]) =
        .ok [0x32, 0x2f, 0x78] := by
  refine ⟨?_, by decide, ?_⟩
  · unfold Inside
    decide
  · rfl

/-- The path `/srv/x` is `x` in `/srv`. -/
theorem relative_path_below :
    Relativised (canonical [srv, [0x78]]) (canonical [srv]) ∧
      (¬ Inside (canonical [srv, [0x78]]) (canonical [srv]) →
        ReportedOutside (canonical [srv, [0x78]]) (canonical [srv])) := by
  have hnames : ∀ name ∈ [srv, [0x78]], ValidName name ∧ 0 ∉ name := by
    unfold ValidName
    decide
  refine ((relative_path_iff (canonical [srv, [0x78]]) (canonical [srv])).2 [srv, [0x78]] [srv]
    hnames (by unfold ValidName; decide)).mpr fun _ => .inr (.inr ⟨[0x78], by decide⟩)

end Virtiofsd
