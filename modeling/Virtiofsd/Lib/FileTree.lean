/-
  # Path resolution in a tree of files

  A tree of files with symbolic links.  Files are known by their LOCATION, the names from the
  root of the tree that lead to them without a symbolic link.  A process sees the tree from a
  root directory and a working directory of its own.

  `Process.resolve` follows a path as `realpath` does: the result is a location below the
  root directory of the process.  Two facts are all that is used of it: on the way to the
  result there are no symbolic links (`resolve_solid`), and a path without symbolic links and
  `..` leads where it says (`resolve_names`).
-/
import Virtiofsd.Lib.UnixPath
import Mathlib.Data.List.Infix

namespace Lib

open UnixPath List

/-- What is found at a location. -/
inductive Node where
  | dir
  | file
  | symlink (target : List UInt8)
  | other
  deriving DecidableEq

/-- The names that lead to a file. -/
abbrev Location := List (List UInt8)

/-- **A tree of files**: what is at each location. -/
structure FileTree where
  node : Location → Option Node
  valid : ∀ l, node l ≠ none → ∀ name ∈ l, ValidName name

/-- Why a path leads nowhere. -/
inductive WalkError where
  | notFound
  | notDirectory
  | tooManyLinks
  deriving DecidableEq

namespace FileTree

variable (tree : FileTree) (root : Location)

/-- Follow the segments of a path, up to the first symbolic link; `follow` goes on from there.
Every segment asks for a directory to start from, also an empty one. -/
def walkWith (follow : Location → List (List UInt8) → Except WalkError Location) :
    Location → List (List UInt8) → Except WalkError Location
  | cur, [] => .ok cur
  | cur, segment :: rest =>
    if tree.node (root ++ cur) ≠ some .dir then .error .notDirectory
    else
      match bodyComponent segment with
      | some .parentDir => walkWith follow cur.dropLast rest
      | some (.normal name) =>
        match tree.node (root ++ (cur ++ [name])) with
        | none => .error .notFound
        | some (.symlink target) =>
          follow (if target.head? = some 0x2f then [] else cur) (target.splitOn 0x2f ++ rest)
        | some _ => walkWith follow (cur ++ [name]) rest
      | _ => walkWith follow cur rest

/-- Follow the segments of a path, with a limit for symbolic links. -/
def walk : Nat → Location → List (List UInt8) → Except WalkError Location
  | 0 => tree.walkWith root fun _ _ => .error .tooManyLinks
  | n + 1 => tree.walkWith root (walk n)

/-- **No symbolic link** on the way to a location. -/
def Solid (l : Location) : Prop := ∀ l', l' <+: l → ∀ target,
  tree.node (root ++ l') ≠ some (.symlink target)

end FileTree

/-- **The tree as a process sees it.** -/
structure Process (tree : FileTree) where
  root : Location
  cwd : Location
  root_dir : tree.node root = some .dir
  cwd_solid : tree.Solid root cwd

/-- How many symbolic links are followed. -/
def maxLinks : Nat := 40

/-- **Where a path leads**, from the root directory of the process. -/
def Process.resolve {tree : FileTree} (p : Process tree) (path : List UInt8) :
    Except WalkError Location :=
  if path = [] then .error .notFound
  else tree.walk p.root maxLinks (if path.head? = some 0x2f then [] else p.cwd)
    (path.splitOn 0x2f)

namespace FileTree

variable {tree : FileTree} {root cur l : Location} {names : List (List UInt8)}
  {follow : Location → List (List UInt8) → Except WalkError Location}

theorem Solid.of_prefix {l' : Location} (h : tree.Solid root l) (hl : l' <+: l) :
    tree.Solid root l' := fun _ h' => h _ (h'.trans hl)

theorem solid_nil (h : tree.node root = some .dir) : tree.Solid root [] := by
  intro l' hl' target
  rw [prefix_nil.mp hl', append_nil, h]
  nofun

theorem Solid.concat {name : List UInt8} (h : tree.Solid root cur)
    (hname : ∀ target, tree.node (root ++ (cur ++ [name])) ≠ some (.symlink target)) :
    tree.Solid root (cur ++ [name]) := by
  intro l' hl' target
  rcases prefix_concat_iff.mp hl' with rfl | hl'
  · exact hname target
  · exact h l' hl' target

/-! ## The result has no symbolic links -/

theorem walkWith_solid (hroot : tree.node root = some .dir)
    (hfollow : ∀ cur segments l, tree.Solid root cur → follow cur segments = .ok l →
      tree.Solid root l) :
    ∀ (segments : List (List UInt8)) (cur : Location), tree.Solid root cur →
      tree.walkWith root follow cur segments = .ok l → tree.Solid root l
  | [], cur, hcur, h => by
    obtain rfl : cur = l := Except.ok.inj h
    exact hcur
  | segment :: rest, cur, hcur, h => by
    rw [walkWith] at h
    split at h
    · cases h
    · split at h
      · exact walkWith_solid hroot hfollow rest _ (hcur.of_prefix (List.dropLast_prefix cur)) h
      · split at h
        · cases h
        · refine hfollow _ _ l ?_ h
          split
          · exact solid_nil hroot
          · exact hcur
        · rename_i node hlink hnode
          refine walkWith_solid hroot hfollow rest _ (hcur.concat fun target heq => ?_) h
          exact hlink target (Option.some.inj (hnode.symm.trans heq))
      · exact walkWith_solid hroot hfollow rest _ hcur h

theorem walk_solid (hroot : tree.node root = some .dir) : ∀ (n : Nat) (cur : Location)
    (segments : List (List UInt8)) (l : Location), tree.Solid root cur →
      tree.walk root n cur segments = .ok l → tree.Solid root l
  | 0, cur, segments, l, hcur, h =>
    walkWith_solid hroot (fun _ _ _ _ h' => by cases h') segments cur hcur h
  | n + 1, cur, segments, l, hcur, h =>
    walkWith_solid hroot (walk_solid hroot n) segments cur hcur h

/-! ## Paths without symbolic links -/

/-- Names that are no symbolic links lead where they say. -/
theorem walkWith_names : ∀ (segments : List (List UInt8)) (cur : Location)
    (names : List (List UInt8)), segments.filterMap bodyComponent = names.map .normal →
      tree.Solid root (cur ++ names) → tree.walkWith root follow cur segments = .ok l →
      l = cur ++ names
  | [], cur, names, hnames, _, h => by
    obtain rfl : names = [] := map_eq_nil_iff.mp hnames.symm
    rw [append_nil]
    exact (Except.ok.inj h).symm
  | segment :: rest, cur, names, hnames, hsolid, h => by
    rw [walkWith] at h
    split at h
    · cases h
    · cases hbody : bodyComponent segment with
      | none =>
        rw [hbody] at h
        rw [filterMap_cons_none hbody] at hnames
        exact walkWith_names rest cur names hnames hsolid h
      | some c =>
        rw [filterMap_cons_some hbody] at hnames
        obtain ⟨name, names, rfl⟩ : ∃ name rest, names = name :: rest := by
          cases names with
          | nil => cases hnames
          | cons name rest => exact ⟨name, rest, rfl⟩
        obtain ⟨rfl, hrest⟩ := List.cons.inj hnames
        rw [hbody] at h
        have happend : cur ++ [name] ++ names = cur ++ name :: names := by simp
        dsimp only at h
        split at h
        · cases h
        · rename_i target hnode
          refine absurd hnode (hsolid (cur ++ [name]) ?_ target)
          exact ⟨names, happend⟩
        · rw [← happend] at hsolid ⊢
          exact walkWith_names rest _ names hrest hsolid h

/-- Segments without a name lead nowhere else. -/
theorem walkWith_nil (hdir : tree.node (root ++ cur) = some .dir) :
    ∀ (segments : List (List UInt8)), segments.filterMap bodyComponent = [] →
      tree.walkWith root follow cur segments = .ok cur
  | [], _ => rfl
  | segment :: rest, h => by
    have hbody : bodyComponent segment = none := by
      cases hbody : bodyComponent segment with
      | none => rfl
      | some c =>
        rw [filterMap_cons_some hbody] at h
        cases h
    rw [filterMap_cons_none hbody] at h
    rw [walkWith, if_neg (not_not.mpr hdir), hbody]
    exact walkWith_nil hdir rest h

end FileTree

namespace Process

variable {tree : FileTree} {p : Process tree} {path : List UInt8} {l : Location}

/-- **The result has no symbolic links.** -/
theorem resolve_solid (h : p.resolve path = .ok l) : tree.Solid p.root l := by
  unfold resolve at h
  split at h
  · cases h
  · refine FileTree.walk_solid p.root_dir maxLinks _ _ l ?_ h
    split
    · exact FileTree.solid_nil p.root_dir
    · exact p.cwd_solid

/-- **An absolute path without symbolic links** and `..` leads where it says. -/
theorem resolve_names {names : List (List UInt8)}
    (hpath : components path = .rootDir :: names.map .normal) (hsolid : tree.Solid p.root names)
    (h : p.resolve path = .ok l) : l = names := by
  obtain ⟨hhead, hnames⟩ := components_eq_rootDir_cons.mp hpath
  unfold resolve at h
  rw [if_pos hhead] at h
  split at h
  · cases h
  · exact FileTree.walkWith_names (path.splitOn 0x2f) [] names hnames hsolid h

theorem resolve_root (hpath : components path = [.rootDir]) : p.resolve path = .ok [] := by
  obtain ⟨hhead, hnames⟩ := components_eq_rootDir_cons.mp hpath
  have hne : path ≠ [] := by
    rintro rfl
    cases hhead
  rw [resolve, if_neg hne, if_pos hhead]
  refine FileTree.walkWith_nil ?_ _ hnames
  rw [append_nil, p.root_dir]

end Process

end Lib
