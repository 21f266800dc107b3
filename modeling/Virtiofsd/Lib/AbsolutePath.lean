/-
  # Absolute paths as lists of names

  The path of a file is the list of names on the way to it.  It is written with a separator in
  front of every name; the root, which has no name, is written as the separator alone.
-/
import Mathlib.Data.List.Basic

namespace Lib

open List

namespace AbsolutePath

variable {α : Type} (sep : α)

/-- The names, each behind a separator. -/
def spell (names : List (List α)) : List α := names.flatMap (sep :: ·)

@[simp] theorem spell_nil : spell sep [] = [] := rfl

@[simp] theorem spell_cons (name : List α) (names : List (List α)) :
    spell sep (name :: names) = sep :: (name ++ spell sep names) := by
  simp [spell]

theorem spell_append (names names' : List (List α)) :
    spell sep (names ++ names') = spell sep names ++ spell sep names' := by
  simp [spell]

/-- **The path that the names are written as.** -/
def path (names : List (List α)) : List α := if names = [] then [sep] else spell sep names

@[simp] theorem path_nil : path sep [] = [sep] := rfl

variable {names : List (List α)}

theorem path_of_ne_nil (h : names ≠ []) :
    path sep names = spell sep names := if_neg h

variable {sep}

theorem head?_path (names : List (List α)) : (path sep names).head? = some sep := by
  cases names with
  | nil => rfl
  | cons name names => rw [path_of_ne_nil _ (cons_ne_nil _ _), spell_cons, head?_cons]

/-- A path is written with the path of every directory above it in front. -/
theorem path_front {names dir : List (List α)} (h : dir <+: names) :
    path sep dir <+: path sep names := by
  obtain ⟨rest, rfl⟩ := h
  by_cases hdir : dir = []
  · subst hdir
    exact ⟨_, cons_head?_tail (Option.mem_def.mpr (head?_path ([] ++ rest)))⟩
  · have hne : dir ++ rest ≠ [] := fun hnil => hdir (append_eq_nil_iff.mp hnil).1
    rw [path_of_ne_nil sep hdir, path_of_ne_nil sep hne, spell_append]
    exact prefix_append _ _

theorem notMem_spell {a : α} (ha : a ≠ sep) (h : ∀ name ∈ names, a ∉ name) :
    a ∉ spell sep names := by
  induction names with
  | nil => exact not_mem_nil
  | cons name names ih =>
    obtain ⟨hname, hnames⟩ := forall_mem_cons.mp h
    rw [spell_cons, mem_cons, mem_append, not_or, not_or]
    exact ⟨ha, hname, ih hnames⟩

theorem notMem_path {a : α} (ha : a ≠ sep) (h : ∀ name ∈ names, a ∉ name) : a ∉ path sep names := by
  unfold path
  split
  · simpa using ha
  · exact notMem_spell ha h

/-- A path of names is more than a separator. -/
theorem spell_ne_singleton (hne : names ≠ []) (h : ∀ name ∈ names, name ≠ []) :
    spell sep names ≠ [sep] := by
  obtain ⟨name, rest, rfl⟩ := exists_cons_of_ne_nil hne
  intro heq
  rw [spell_cons] at heq
  exact h name mem_cons_self (append_eq_nil_iff.mp (cons.inj heq).2).1

end AbsolutePath

end Lib
