/-
  # What a program may do

  `p.Ends o log`: the program `p` may end with the outcome `o` after the actions of `log`, in
  that order and with those answers.  Nothing is assumed about who answers, so a program that
  runs between others is covered like one that runs alone.  The lemmas take the log of a
  composed program apart.
-/
import Virtiofsd.Lib.Program

namespace Lib

namespace Prog

variable {A : Type} {R : A → Type} {E P α β : Type}

/-- **The logs of a program**: which actions it performs, with which answers, until it ends
with `o`. -/
def Ends : Prog A R E P α → Outcome E P α → List (Sigma R) → Prop
  | ret a, o, log => o = .ok a ∧ log = []
  | err e, o, log => o = .err e ∧ log = []
  | panic q, o, log => o = .panic q ∧ log = []
  | act a k, o, log => ∃ r rest, log = ⟨a, r⟩ :: rest ∧ (k r).Ends o rest

/-- A run is one of the ways to end. -/
theorem run_ends {S : Type} (h : (a : A) → S → R a × S) (p : Prog A R E P α) :
    ∀ s, p.Ends (p.run h s).1 (p.trace h s) := by
  induction p with
  | ret | err | panic => exact fun _ => ⟨rfl, rfl⟩
  | act a k ih => exact fun s => ⟨_, _, rfl, ih _ _⟩

variable {log : List (Sigma R)} {a : α}

theorem of_ends_ret {o : Outcome E P α} (h : (ret a : Prog A R E P α).Ends o log) :
    o = .ok a ∧ log = [] := h

theorem not_ends_err {e : E} :
    ¬ (err e : Prog A R E P α).Ends (.ok a) log := by
  rintro ⟨ho, -⟩
  cases ho

theorem not_ends_panic {q : P} :
    ¬ (panic q : Prog A R E P α).Ends (.ok a) log := by
  rintro ⟨ho, -⟩
  cases ho

theorem of_ends_perform {a : A} {r : R a} (h : (perform a : Prog A R E P (R a)).Ends (.ok r) log) :
    log = [⟨a, r⟩] := by
  obtain ⟨r', rest, rfl, hret⟩ := h
  obtain ⟨ho, rfl⟩ := of_ends_ret hret
  cases ho
  rfl

variable {p : Prog A R E P α}

/-- A sequence that returns: its two parts, one after the other. -/
theorem of_ends_bind {f : α → Prog A R E P β} {b : β} (h : (p.bind f).Ends (.ok b) log) :
    ∃ a log₁ log₂, p.Ends (.ok a) log₁ ∧ (f a).Ends (.ok b) log₂ ∧ log = log₁ ++ log₂ := by
  induction p generalizing log with
  | ret a => exact ⟨a, [], log, ⟨rfl, rfl⟩, h, rfl⟩
  | err e => exact absurd h not_ends_err
  | panic q => exact absurd h not_ends_panic
  | act a k ih =>
    obtain ⟨r, rest, rfl, hk⟩ := h
    obtain ⟨a', log₁, log₂, h₁, h₂, rfl⟩ := ih r hk
    exact ⟨a', ⟨a, r⟩ :: log₁, log₂, ⟨r, log₁, rfl, h₁⟩, h₂, rfl⟩

theorem of_ends_map {f : α → β} {b : β} (h : (p.bind fun a => ret (f a)).Ends (.ok b) log) :
    ∃ a, p.Ends (.ok a) log ∧ f a = b := by
  obtain ⟨a, log₁, _, hp, ⟨hb, rfl⟩, rfl⟩ := of_ends_bind h
  cases hb
  exact ⟨a, (List.append_nil log₁).symm ▸ hp, rfl⟩

theorem of_ends_attempt {r : Except E α} (h : p.attempt.Ends (.ok r) log) :
    (∃ a, r = .ok a ∧ p.Ends (.ok a) log) ∨ ∃ e, r = .error e ∧ p.Ends (.err e) log := by
  induction p generalizing log with
  | ret a =>
    obtain ⟨ho, rfl⟩ := h
    cases ho
    exact .inl ⟨a, rfl, rfl, rfl⟩
  | err e =>
    obtain ⟨ho, rfl⟩ := h
    cases ho
    exact .inr ⟨e, rfl, rfl, rfl⟩
  | panic q => exact absurd h not_ends_panic
  | act a k ih =>
    obtain ⟨x, rest, rfl, hk⟩ := h
    rcases ih x hk with ⟨a', hr, hp⟩ | ⟨e, hr, hp⟩
    · exact .inl ⟨a', hr, x, rest, rfl, hp⟩
    · exact .inr ⟨e, hr, x, rest, rfl, hp⟩

/-- A scope that returns: its body has, and the clean-up has followed. -/
theorem of_ends_ensuring {c : Prog A R E P Unit} (h : (p.ensuring c).Ends (.ok a) log) :
    ∃ log₁ log₂, p.Ends (.ok a) log₁ ∧ log = log₁ ++ log₂ := by
  obtain ⟨r, log₁, log₂, hp, hc, rfl⟩ := of_ends_bind h
  refine ⟨log₁, log₂, ?_, rfl⟩
  rcases of_ends_attempt hp with ⟨a', rfl, hbody⟩ | ⟨e, rfl, -⟩
  · obtain ⟨_, _, log₃, _, hret, rfl⟩ := of_ends_bind hc
    obtain ⟨ho, rfl⟩ := of_ends_ret hret
    cases ho
    exact hbody
  · obtain ⟨_, _, _, _, herr, rfl⟩ := of_ends_bind hc
    exact absurd herr not_ends_err

/-- A program over some of the actions, as one over all: the log is that of the program. -/
theorem of_ends_mapAct {B : Type} {S : B → Type} {U : Type} {f : A → B}
    {g : (a : A) → S (f a) → R a} {u : P → U} {log : List (Sigma S)}
    (h : (p.mapAct f g u).Ends (.ok a) log) :
    ∃ own, p.Ends (.ok a) own ∧
      ∀ x ∈ own, ∃ s, (⟨f x.1, s⟩ : Sigma S) ∈ log ∧ g x.1 s = x.2 := by
  induction p generalizing log with
  | ret a' =>
    obtain ⟨ho, rfl⟩ := h
    exact ⟨[], ⟨by cases ho; rfl, rfl⟩, by simp⟩
  | err e => exact absurd h not_ends_err
  | panic q => exact absurd h not_ends_panic
  | act a' k ih =>
    obtain ⟨s, rest, rfl, hk⟩ := h
    obtain ⟨own, hp, hown⟩ := ih _ hk
    refine ⟨⟨a', g a' s⟩ :: own, ⟨_, own, rfl, hp⟩, fun x hx => ?_⟩
    rcases List.mem_cons.mp hx with rfl | hx
    · exact ⟨s, List.mem_cons_self, rfl⟩
    · obtain ⟨s', hs', heq⟩ := hown x hx
      exact ⟨s', List.mem_cons_of_mem _ hs', heq⟩

end Prog

end Lib
