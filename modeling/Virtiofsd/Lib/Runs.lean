/-
  # Runs of a state machine

  A machine that takes one event after the other.  Where a property of the state is kept by a
  step exactly under some condition, it holds throughout a run exactly if every step of the
  run meets the condition.

  A machine that cannot take every event has a step that may fail.
-/
import Mathlib.Data.List.Basic

namespace Lib

variable {S E : Type} (step : S → E → S)

/-- **Every state of the run** has the property. -/
def Throughout (P : S → Prop) : S → List E → Prop
  | s, [] => P s
  | s, e :: es => P s ∧ Throughout P (step s e) es

/-- **Every step of the run** meets the condition. -/
def EveryStep (C : S → E → Prop) : S → List E → Prop
  | _, [] => True
  | s, e :: es => C s e ∧ EveryStep C (step s e) es

variable {step} {P : S → Prop} {C : S → E → Prop} {ok : E → Prop}

theorem Throughout.head : ∀ {s : S} {es : List E}, Throughout step P s es → P s
  | _, [], h => h
  | _, _ :: _, h => h.1

theorem throughout_iff_everyStep (hstep : ∀ s e, ok e → P s → (P (step s e) ↔ C s e)) :
    ∀ {s : S} {es : List E}, (∀ e ∈ es, ok e) → P s →
      (Throughout step P s es ↔ EveryStep step C s es)
  | s, [], _, hs => iff_of_true hs trivial
  | s, e :: es, hok, hs => by
    have he : P (step s e) ↔ C s e := hstep s e (hok e List.mem_cons_self) hs
    have hrest : ∀ e' ∈ es, ok e' := fun e' he' => hok e' (List.mem_cons_of_mem _ he')
    constructor
    · rintro ⟨-, h⟩
      have hnext : P (step s e) := h.head
      exact ⟨he.mp hnext, (throughout_iff_everyStep hstep hrest hnext).mp h⟩
    · rintro ⟨hC, h⟩
      have hnext : P (step s e) := he.mpr hC
      exact ⟨hs, (throughout_iff_everyStep hstep hrest hnext).mpr h⟩

/-! ## Steps that may fail -/

/-- The state after the events, if all of them can be taken. -/
def steps (step : S → E → Option S) : S → List E → Option S
  | s, [] => some s
  | s, e :: es => (step s e).bind (steps step · es)

/-- Every step that is taken meets the condition. -/
def StepsMeet (step : S → E → Option S) (C : S → E → Prop) : S → List E → Prop
  | _, [] => True
  | s, e :: es => C s e ∧ ∀ s', step s e = some s' → StepsMeet step C s' es

theorem StepsMeet.cons {step : S → E → Option S} {s s' : S} {e : E} {es : List E}
    (he : C s e) (hs : step s e = some s') (h : StepsMeet step C s' es) :
    StepsMeet step C s (e :: es) :=
  ⟨he, fun _ hs' => Option.some.inj (hs.symm.trans hs') ▸ h⟩

/-- **An invariant of all runs** whose steps meet the condition. -/
theorem steps_invariant {step : S → E → Option S}
    (hstep : ∀ s e s', P s → C s e → step s e = some s' → P s') :
    ∀ {s s' : S} {es : List E}, P s → StepsMeet step C s es → steps step s es = some s' → P s'
  | s, s', [], hs, _, h => Option.some.inj h ▸ hs
  | s, s', e :: es, hs, hmeet, h => by
    obtain ⟨s₁, hs₁, hrest⟩ := Option.bind_eq_some_iff.mp h
    exact steps_invariant hstep (hstep s e s₁ hs hmeet.1 hs₁) (hmeet.2 s₁ hs₁) hrest

end Lib
