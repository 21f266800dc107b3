/-
  # Unix paths and their components

  A path is a sequence of bytes.  All that is asked of a path goes by its COMPONENTS: runs of
  slashes, a slash at the end and `.` between slashes do not count, a leading slash and a
  leading `.` do, and `..` is kept as it is.
-/
import Virtiofsd.Lib.AbsolutePath
import Mathlib.Data.UInt

namespace Lib

open List

namespace UnixPath

/-- One component of a path. -/
inductive Component where
  | rootDir
  | curDir
  | parentDir
  | normal (name : List UInt8)
  deriving DecidableEq

/-- What stands between two slashes. -/
def bodyComponent (segment : List UInt8) : Option Component :=
  if segment = [] ∨ segment = [0x2e] then none
  else if segment = [0x2e, 0x2e] then some .parentDir
  else some (.normal segment)

/-- How a path starts. -/
def startComponent (path : List UInt8) : Option Component :=
  if path.head? = some 0x2f then some .rootDir
  else if (path.splitOn 0x2f).head? = some [0x2e] then some .curDir
  else none

/-- **The components of a path.** -/
def components (path : List UInt8) : List Component :=
  (startComponent path).toList ++ (path.splitOn 0x2f).filterMap bodyComponent

/-- The path after a prefix, if it has that prefix. -/
def stripPrefix : List Component → List Component → Option (List Component)
  | path, [] => some path
  | [], _ :: _ => none
  | c :: path, b :: base => if c = b then stripPrefix path base else none

/-- The path without its last component; the root directory has no parent. -/
def parent (path : List Component) : Option (List Component) :=
  match path.getLast? with
  | none => none
  | some .rootDir => none
  | some _ => some path.dropLast

/-- The last component, if it is a name. -/
def fileName (path : List Component) : Option (List UInt8) :=
  match path.getLast? with
  | some (.normal name) => some name
  | _ => none

/-- The names among the components. -/
def names (path : List Component) : List (List UInt8) :=
  path.filterMap fun
    | .normal name => some name
    | _ => none

variable {path : List UInt8} {dir : List UInt8}

theorem stripPrefix_eq_some : ∀ {path base rest : List Component},
    stripPrefix path base = some rest ↔ path = base ++ rest
  | path, [], rest => by simp [stripPrefix]
  | [], b :: base, rest => by simp [stripPrefix]
  | c :: path, b :: base, rest => by
    rw [stripPrefix]
    by_cases h : c = b
    · rw [if_pos h, stripPrefix_eq_some, h, cons_append, cons.injEq]
      exact (and_iff_right rfl).symm
    · rw [if_neg h, cons_append, cons.injEq]
      exact ⟨nofun, fun heq => absurd heq.1 h⟩

variable {rel : List (List UInt8)} {name : List UInt8}

@[simp] theorem names_map_normal (rel : List (List UInt8)) : names (rel.map .normal) = rel := by
  induction rel with
  | nil => rfl
  | cons name rel ih => exact congrArg (name :: ·) ih

/-- A path of names, its parent and its last name. -/
theorem parent_names (rel : List (List UInt8)) (name : List UInt8) :
    parent ((rel ++ [name]).map .normal) = some (rel.map .normal) := by
  unfold parent
  rw [map_append, map_singleton, getLast?_append_of_ne_nil _ (by simp)]
  simp

theorem fileName_names (rel : List (List UInt8)) (name : List UInt8) :
    fileName ((rel ++ [name]).map .normal) = some name := by
  unfold fileName
  rw [map_append, map_singleton, getLast?_append_of_ne_nil _ (by simp)]
  simp

/-! ## Paths of names -/

/-- A name that a directory entry can have. -/
def ValidName (name : List UInt8) : Prop := 0x2f ∉ name ∧ bodyComponent name = some (.normal name)

/-- The absolute path of the names. -/
def render (names : List (List UInt8)) : List UInt8 := [0x2f].intercalate ([] :: names)

theorem startComponent_of_head (h : path.head? = some 0x2f) :
    startComponent path = some .rootDir := if_pos h

theorem filterMap_bodyComponent : ∀ {rel : List (List UInt8)}, (∀ name ∈ rel, ValidName name) →
    rel.filterMap bodyComponent = rel.map .normal
  | [], _ => rfl
  | name :: rel, h => by
    rw [filterMap_cons_some (h name mem_cons_self).2, map_cons,
      filterMap_bodyComponent fun y hy => h y (mem_cons_of_mem _ hy)]

theorem bodyComponent_ne_rootDir (segment : List UInt8) :
    bodyComponent segment ≠ some .rootDir := by
  unfold bodyComponent
  split
  · nofun
  · split <;> nofun

theorem components_render (h : ∀ name ∈ rel, ValidName name) (hne : rel ≠ []) :
    components (render rel) = .rootDir :: rel.map .normal := by
  obtain ⟨name, rest, rfl⟩ := exists_cons_of_ne_nil hne
  have hsplit : (render (name :: rest)).splitOn 0x2f = [] :: name :: rest := by
    refine splitOn_intercalate _ (fun l hl => ?_) (cons_ne_nil _ _)
    rcases mem_cons.mp hl with rfl | hl
    · exact not_mem_nil
    · exact (h l hl).1
  rw [components, hsplit, startComponent_of_head rfl, filterMap_cons_none rfl,
    filterMap_bodyComponent h]
  rfl

/-- How the components of an absolute path came about. -/
theorem components_eq_rootDir_cons {rest : List Component} :
    components path = .rootDir :: rest ↔
      path.head? = some 0x2f ∧ (path.splitOn 0x2f).filterMap bodyComponent = rest := by
  unfold components
  constructor
  · intro h
    by_cases hhead : path.head? = some 0x2f
    · rw [startComponent_of_head hhead] at h
      exact ⟨hhead, (cons.inj h).2⟩
    · exfalso
      unfold startComponent at h
      rw [if_neg hhead] at h
      split at h
      · cases (cons.inj h).1
      · rw [Option.toList_none, nil_append] at h
        have hmem := mem_cons_self (a := Component.rootDir) (l := rest)
        rw [← h, mem_filterMap] at hmem
        obtain ⟨segment, -, hsegment⟩ := hmem
        exact bodyComponent_ne_rootDir segment hsegment
  · rintro ⟨hhead, hrest⟩
    rw [startComponent_of_head hhead, hrest]
    rfl

/-! ## Paths below a directory -/

/-- The components of an absolute path behind the root directory. -/
def body (path : List UInt8) : List Component := (path.splitOn 0x2f).filterMap bodyComponent

theorem components_of_absolute (h : path.head? = some 0x2f) :
    components path = .rootDir :: body path :=
  components_eq_rootDir_cons.mpr ⟨h, rfl⟩

@[simp] theorem body_nil : body [] = [] := rfl

@[simp] theorem body_append_slash (path rest : List UInt8) :
    body (path ++ 0x2f :: rest) = body path ++ body rest := by
  rw [body, splitOn_append_cons_self, filterMap_append]
  rfl

@[simp] theorem body_slash (rest : List UInt8) : body (0x2f :: rest) = body rest :=
  body_append_slash [] rest

/-- Slashes in front do not count. -/
@[simp] theorem body_dropWhile_slash (path : List UInt8) :
    body (path.dropWhile (· = 0x2f)) = body path := by
  induction path with
  | nil => rfl
  | cons b path ih =>
    by_cases h : b = 0x2f
    · subst h
      rw [dropWhile_cons_of_pos (by decide), ih, body_slash]
    · rw [dropWhile_cons_of_neg (by simpa using h)]

/-- A name between two slashes. -/
theorem body_of_notMem {segment : List UInt8} (h : 0x2f ∉ segment) :
    body segment = (bodyComponent segment).toList := by
  rw [body, splitOn_eq_singleton h]
  cases hc : bodyComponent segment <;> simp [hc]

/-- `Path::join` with a relative path. -/
def join (dir rest : List UInt8) : List UInt8 :=
  if dir.getLast? = some 0x2f then dir ++ rest else dir ++ 0x2f :: rest

theorem eq_concat_of_getLast? (h : dir.getLast? = some 0x2f) :
    ∃ front, dir = front ++ [0x2f] := by
  obtain ⟨front, last, rfl⟩ := eq_nil_or_concat' dir |>.resolve_left (by rintro rfl; cases h)
  rw [getLast?_concat, Option.some.injEq] at h
  exact ⟨front, by rw [h]⟩

/-- A path that goes on behind a slash. -/
theorem body_append_of_getLast? (h : dir.getLast? = some 0x2f) (rest : List UInt8) :
    body (dir ++ rest) = body dir ++ body rest := by
  obtain ⟨front, rfl⟩ := eq_concat_of_getLast? h
  rw [append_assoc, singleton_append, body_append_slash, body_append_slash, body_nil,
    append_nil]

@[simp] theorem body_join (dir rest : List UInt8) :
    body (join dir rest) = body dir ++ body rest := by
  unfold join
  split
  · next h => exact body_append_of_getLast? h rest
  · exact body_append_slash dir rest

theorem head?_join (h : dir.head? = some 0x2f) (rest : List UInt8) :
    (join dir rest).head? = some 0x2f := by
  cases dir with
  | nil => cases h
  | cons b dir =>
    unfold join
    split <;> exact h

theorem bodyComponent_of_ne {s : List UInt8} (hs : s ≠ []) (hdot : s ≠ [0x2e]) :
    bodyComponent s = some (if s = [0x2e, 0x2e] then .parentDir else .normal s) := by
  rw [bodyComponent, if_neg (not_or.mpr ⟨hs, hdot⟩)]
  split <;> rfl

/-- Two names run together are another name. -/
theorem bodyComponent_append_ne {s u : List UInt8} (hs : s ≠ []) (hu : u ≠ []) :
    (bodyComponent (s ++ u)).toList ≠ (bodyComponent s).toList ++ (bodyComponent u).toList := by
  have hnil : s ++ u ≠ [] := fun h => hs (append_eq_nil_iff.mp h).1
  have hdot : s ++ u ≠ [0x2e] := by
    intro h
    rcases append_eq_singleton_iff.mp h with ⟨h, -⟩ | ⟨-, h⟩
    · exact hs h
    · exact hu h
  rw [bodyComponent_of_ne hnil hdot]
  by_cases hsdot : s = [0x2e]
  · -- nothing is left of `.`
    subst hsdot
    by_cases hudot : u = [0x2e]
    · subst hudot
      decide
    · have hup : [0x2e] ++ u ≠ [0x2e, 0x2e] := fun h => hudot (cons.inj h).2
      rw [bodyComponent_of_ne hu hudot, if_neg hup]
      intro h
      have hname := (cons.inj h).1
      split at hname
      · cases hname
      · exact hs (append_left_eq_self.mp (Component.normal.inj hname))
  · rw [bodyComponent_of_ne hs hsdot]
    by_cases hudot : u = [0x2e]
    · subst hudot
      have hup : s ++ [0x2e] ≠ [0x2e, 0x2e] := fun h =>
        hsdot (append_inj_left' (show s ++ [0x2e] = [0x2e] ++ [0x2e] from h) rfl)
      rw [if_neg hup]
      intro h
      have hname := (cons.inj h).1
      split at hname
      · cases hname
      · exact hu (append_right_eq_self.mp (Component.normal.inj hname))
    · rw [bodyComponent_of_ne hu hudot]
      intro h
      cases (cons.inj h).2

/-- **A path that goes on within a name is not below the directory.** -/
theorem body_append_ne {dir rest : List UInt8} (habsolute : dir.head? = some 0x2f)
    (hdir : dir.getLast? ≠ some 0x2f) (hrest : rest.head? ≠ some 0x2f) (hne : rest ≠ []) :
    body (dir ++ rest) ≠ body dir ++ body rest := by
  -- the last name of the directory
  obtain ⟨tail, front, hsplit, htail⟩ : ∃ tail front, dir.reverse = tail ++ 0x2f :: front ∧
      0x2f ∉ tail := by
    have hmem : 0x2f ∈ dir.reverse := mem_reverse.mpr (mem_of_mem_head? habsolute)
    exact eq_append_cons_of_mem hmem
  obtain rfl : dir = front.reverse ++ 0x2f :: tail.reverse := by
    rw [← reverse_reverse dir, hsplit]
    simp
  have htail' : 0x2f ∉ tail.reverse := fun h => htail (mem_reverse.mp h)
  have hs : tail.reverse ≠ [] := by
    intro h
    rw [h] at hdir
    simp at hdir
  -- the name that the rest begins with
  obtain ⟨u, rest', hu, hrest', rfl⟩ : ∃ u rest', 0x2f ∉ u ∧
      (rest' = [] ∨ ∃ rest'', rest' = 0x2f :: rest'') ∧ rest = u ++ rest' := by
    by_cases hmem : 0x2f ∈ rest
    · obtain ⟨u, rest'', rfl, hu⟩ := eq_append_cons_of_mem hmem
      exact ⟨u, _, hu, .inr ⟨rest'', rfl⟩, rfl⟩
    · exact ⟨rest, [], hmem, .inl rfl, (append_nil rest).symm⟩
  have hune : u ≠ [] := by
    rintro rfl
    rcases hrest' with rfl | ⟨rest'', rfl⟩
    · exact hne rfl
    · exact hrest rfl
  have hjoined : 0x2f ∉ tail.reverse ++ u := by
    rw [mem_append, not_or]
    exact ⟨htail', hu⟩
  intro h
  refine bodyComponent_append_ne hs hune ?_
  rw [← body_of_notMem hjoined, ← body_of_notMem htail', ← body_of_notMem hu]
  rcases hrest' with rfl | ⟨rest'', rfl⟩
  · simpa using h
  · have hleft : body (front.reverse ++ 0x2f :: tail.reverse ++ (u ++ 0x2f :: rest'')) =
        body front.reverse ++ (body (tail.reverse ++ u) ++ body rest'') := by
      rw [append_assoc, cons_append, ← append_assoc tail.reverse,
        body_append_slash, body_append_slash]
    rw [hleft, body_append_slash, body_append_slash, append_assoc,
      append_cancel_left_eq, ← append_assoc, append_cancel_right_eq] at h
    exact h

/-! ## Canonical paths -/

theorem render_eq_spell (names : List (List UInt8)) :
    render names = AbsolutePath.spell 0x2f names := by
  induction names with
  | nil => rfl
  | cons name names ih =>
    rw [AbsolutePath.spell_cons, ← ih]
    cases names with
    | nil | cons => simp [render, intercalate]

/-- **The canonical path of a file.** -/
def canonical (names : List (List UInt8)) : List UInt8 := AbsolutePath.path 0x2f names

theorem components_canonical {names : List (List UInt8)} (h : ∀ name ∈ names, ValidName name) :
    components (canonical names) = .rootDir :: names.map .normal := by
  by_cases hne : names = []
  · subst hne
    decide
  · rw [canonical, AbsolutePath.path_of_ne_nil _ hne, ← render_eq_spell, components_render h hne]

end UnixPath

end Lib
