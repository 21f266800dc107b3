/-
  # Layers of programs

  A program over the actions `A` becomes one over the actions `B` of a lower layer when every
  action is implemented by a program (`Prog.expand`).  What was proved above, from a
  specification of `A`, stays true below if each implementation meets that specification
  (`wp_expand`).

  `Spec.Follows` says that the answers in a log are those that a specification allows; what
  was proved with weakest preconditions is true of every such log (`of_wp_follows`).
-/
import Virtiofsd.Lib.Log

namespace Lib

variable {A : Type} {R : A → Type} {B : Type} {S : B → Type} {E P α β : Type} {G H : Type}

/-! ## 1. Logs that follow a specification -/

/-- **The answers are as the specification says**, and lead from one ghost state to another. -/
def Spec.Follows (T : Spec A R G) : G → List (Sigma R) → G → Prop
  | g, [], g' => g' = g
  | g, ⟨a, r⟩ :: log, g' => ∃ g₁, T.post a g r g₁ ∧ T.Follows g₁ log g'

namespace Prog

variable {Q : Outcome E P α → G → Prop}

theorem of_wp_follows {T : Spec A R G} (p : Prog A R E P α) :
    ∀ {g g' : G} {o : Outcome E P α} {log : List (Sigma R)}, p.wp T Q g → p.Ends o log →
      T.Follows g log g' → Q o g' := by
  induction p with
  | ret | err | panic =>
    rintro g g' o log hwp ⟨rfl, rfl⟩ rfl
    exact hwp
  | act a k ih =>
    rintro g g' o log ⟨-, hwp⟩ ⟨r, rest, rfl, hends⟩ ⟨g₁, hpost, hrest⟩
    exact ih r (hwp r g₁ hpost) hends hrest

/-- A run whose answers are as the specification says. -/
theorem follows_trace {T : Spec A R G} {h : (a : A) → G → R a × G}
    (hh : ∀ a g, T.post a g (h a g).1 (h a g).2) (p : Prog A R E P α) :
    ∀ g, T.Follows g (p.trace h g) (p.run h g).2 := by
  induction p with
  | ret | err | panic => exact fun _ => rfl
  | act a k ih => exact fun g => ⟨_, hh a g, ih _ _⟩

/-! ## 2. Implementations -/

/-- **The program with its actions implemented.** -/
def expand (f : (a : A) → Prog B S E P (R a)) : Prog A R E P α → Prog B S E P α
  | ret a => ret a
  | err e => err e
  | panic q => panic q
  | act a k => (f a).bind fun r => (k r).expand f

variable {f : (a : A) → Prog B S E P (R a)}

theorem expand_bind (p : Prog A R E P α) (k : α → Prog A R E P β) :
    (p.bind k).expand f = (p.expand f).bind fun a => (k a).expand f := by
  induction p with
  | ret | err | panic => rfl
  | act a k ih =>
    simp only [bind_act, expand, bind_assoc]
    exact congrArg (f a).bind (funext ih)

/-- **Soundness of implementations.**  `Rel` relates the ghost states of the layers. -/
theorem wp_expand {T : Spec A R G} {U : Spec B S H} {Rel : H → G → Prop}
    (hf : ∀ a h g, Rel h g → T.pre a g →
      (f a).wp U (fun o h' => ∃ r g', o = .ok r ∧ T.post a g r g' ∧ Rel h' g') h)
    (p : Prog A R E P α) : ∀ {g : G} {h : H}, p.wp T Q g → Rel h g →
      (p.expand f).wp U (fun o h' => ∃ g', Rel h' g' ∧ Q o g') h := by
  induction p with
  | ret | err | panic => exact fun hwp hrel => ⟨_, hrel, hwp⟩
  | act a k ih =>
    intro g h hwp hrel
    refine wp_bind.mpr (wp_mono ?_ (f a) (hf a h g hrel hwp.1))
    rintro o h' ⟨r, g', rfl, hpost, hrel'⟩
    exact ih r (hwp.2 r g' hpost) hrel'

end Prog

end Lib
