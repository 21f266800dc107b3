/-
  # Programs that keep to a policy

  A program with `Keeps allowed ok p Q` may fail or panic at any time.  Programs that keep to a
  policy can run between each other in any way: every action in the common log is allowed.
-/
import Virtiofsd.Lib.Answers
import Virtiofsd.Lib.Log

namespace Lib

open List

variable {A : Type} {R : A → Type} {E P α β : Type}

/-- **The program with some answers given**: those that `known` has. -/
def Prog.given (known : (a : A) → Option (R a)) : Prog A R E P α → Prog A R E P α
  | ret a => ret a
  | err e => err e
  | panic q => panic q
  | act a k =>
    match known a with
    | some r => (k r).given known
    | none => act a fun r => (k r).given known

/-- Only the answers count that the program may ask for. -/
theorem Keeps.given_congr {allowed : A → Prop} {known known' : (a : A) → Option (R a)}
    {Q : α → Prop} {p : Prog A R E P α} (hp : Keeps allowed (fun _ _ => True) p Q)
    (h : ∀ a, allowed a → known a = known' a) : p.given known = p.given known' := by
  induction p with
  | ret | err | panic => rfl
  | act a k ih =>
    have hrest : ∀ r, (k r).given known = (k r).given known' :=
      fun r => ih r (hp.2 r () trivial)
    unfold Prog.given
    rw [← h a hp.1]
    cases known a with
    | some r => exact hrest r
    | none => exact congrArg (Prog.act a) (funext hrest)

/-- **Programs between each other.**  Threads start at any time with programs from `start`
and act in any order; `log` has what they have done. -/
inductive Interleaved (start : Prog A R E P α → Prop) (ok : (a : A) → R a → Prop) :
    List (Prog A R E P α) → List (Sigma R) → Prop where
  | nil : Interleaved start ok [] []
  | start {threads log p} : Interleaved start ok threads log → start p →
      Interleaved start ok (p :: threads) log
  | act {l₁ l₂ log a k r} : Interleaved start ok (l₁ ++ .act a k :: l₂) log → ok a r →
      Interleaved start ok (l₁ ++ k r :: l₂) (log ++ [⟨a, r⟩])

section Interleaved

variable {start : Prog A R E P α → Prop} {ok : (a : A) → R a → Prop}
  {threads : List (Prog A R E P α)} {log : List (Sigma R)}

/-- The answers in the log are all that is asked of the environment. -/
theorem Interleaved.restrict {ok' : (a : A) → R a → Prop} (h : Interleaved start ok threads log)
    (hok : ∀ x ∈ log, ok' x.1 x.2) : Interleaved start ok' threads log := by
  induction h with
  | nil => exact .nil
  | start _ hp ih => exact .start (ih hok) hp
  | act _ _ ih =>
    refine .act (ih fun x hx => hok x ?_) (hok ⟨_, _⟩ ?_)
    · exact mem_append_left _ hx
    · exact mem_append_right _ (mem_singleton_self _)

/-- A thread may go on alone until it ends. -/
theorem Interleaved.goesOn {o : Outcome E P α} {p : Prog A R E P α} {more : List (Sigma R)}
    (h : Interleaved start (fun _ _ => True) [p] log) (hp : p.Ends o more) :
    ∃ q, Interleaved start (fun _ _ => True) [q] (log ++ more) := by
  induction p generalizing log more with
  | ret | err | panic => exact ⟨_, by rw [hp.2, append_nil]; exact h⟩
  | act a k ih =>
    obtain ⟨r, rest, rfl, hk⟩ := hp
    have hstep : Interleaved start (fun _ _ => True) ([] ++ k r :: []) (log ++ [⟨a, r⟩]) :=
      .act h trivial
    obtain ⟨q, hq⟩ := ih r hstep hk
    exact ⟨q, by rwa [append_assoc] at hq⟩

/-- **Soundness for interleavings.** -/
theorem Interleaved.allowed {allowed : A → Prop}
    (hstart : ∀ p, start p → Keeps allowed ok p fun _ => True)
    (h : Interleaved start ok threads log) :
    (∀ p ∈ threads, Keeps allowed ok p fun _ => True) ∧ ∀ x ∈ log, allowed x.1 := by
  induction h with
  | nil => simp
  | start _ hp ih =>
    exact ⟨forall_mem_cons.mpr ⟨hstart _ hp, ih.1⟩, ih.2⟩
  | @act l₁ l₂ log a k r _ hr ih =>
    have hact : Keeps allowed ok (.act a k) fun _ => True := ih.1 _ (by simp)
    exact ⟨forall_mem_replace ih.1 (hact.2 r () hr),
      forall_mem_append.mpr ⟨ih.2, forall_mem_singleton.mpr hact.1⟩⟩

end Interleaved

end Lib
