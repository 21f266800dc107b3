/-
  # Properties of programs that follow from their parts

  A property of programs is `Compositional` if it holds of values and errors, of a sequence
  if it holds of both parts, and of `attempt p` if it holds of `p`.  That a long program has
  such a property follows from the same for the programs it is made of, whichever property
  it is.  So the walk through a program text is done once, for all such properties, and each
  of them is left with the actions.

  Two kinds of properties are compositional: keeping to a policy, with answers from a given
  set (`Keeps.compositional`, `Meets.compositional`), and moving a ghost state along a
  preorder (`Moves.compositional`).
-/
import Virtiofsd.Lib.Guarded

namespace Lib

variable {A : Type} {R : A → Type} {E P α β : Type}

/-- **A property that holds of what is put together if it holds of the parts.** -/
structure Compositional (W : ∀ {α : Type}, Prog A R E P α → Prop) : Prop where
  ret : ∀ {α : Type} (a : α), W (.ret a : Prog A R E P α)
  err : ∀ {α : Type} (e : E), W (.err e : Prog A R E P α)
  bind : ∀ {α β : Type} {p : Prog A R E P α} {k : α → Prog A R E P β},
    W p → (∀ a, W (k a)) → W (p.bind k)
  attempt : ∀ {α : Type} {p : Prog A R E P α}, W p → W p.attempt

namespace Compositional

variable {W : ∀ {α : Type}, Prog A R E P α → Prop} (hW : Compositional W)
  {p : Prog A R E P α} {c : Prog A R E P Unit}

include hW

theorem map {f : α → β} (hp : W p) : W (p.bind fun a => .ret (f a)) := hW.bind hp fun _ => hW.ret _

theorem ofExcept (r : Except E α) : W (Prog.ofExcept r : Prog A R E P α) := by
  cases r with
  | ok a => exact hW.ret a
  | error e => exact hW.err e

theorem onErr (hp : W p) (hc : W c) : W (p.onErr c) := by
  refine hW.bind (hW.attempt hp) fun r => ?_
  cases r with
  | ok a => exact hW.ret a
  | error e => exact hW.bind hc fun _ => hW.err e

theorem ensuring (hp : W p) (hc : W c) : W (p.ensuring c) :=
  hW.bind (hW.attempt hp) fun r => hW.bind hc fun _ => hW.ofExcept r

/-- The programs over some of the actions, as programs over all of them. -/
theorem comap {B : Type} {S : B → Type} {U : Type} (f : B → A) (g : (b : B) → R (f b) → S b)
    (u : U → P) :
    Compositional (A := B) (R := S) (P := U) fun p => W (p.mapAct f g u) where
  ret a := hW.ret a
  err e := hW.err e
  bind hp hk := by
    rw [Prog.mapAct_bind]
    exact hW.bind hp hk
  attempt hp := by
    rw [Prog.mapAct_attempt]
    exact hW.attempt hp

end Compositional

theorem Keeps.compositional (allowed : A → Prop) (ok : (a : A) → R a → Prop) :
    Compositional (E := E) (P := P) fun p => Keeps allowed ok p fun _ => True where
  ret _ := Obeys.ret trivial
  err _ := Obeys.err
  bind hp hk := hp.bind fun a _ => hk a
  attempt hp := hp.attempt

/-! ## Moving a ghost state -/

section Moves

variable {G : Type} {S : Spec A R G} {rel : G → G → Prop}

/-- **From any ghost state, the program keeps to its specification and ends in a state that
is related to the first.** -/
def Moves (S : Spec A R G) (rel : G → G → Prop) (p : Prog A R E P α) : Prop :=
  ∀ g, p.wp S (fun _ g' => rel g g') g

theorem Moves.compositional (hrefl : ∀ g, rel g g)
    (htrans : ∀ {g g' g''}, rel g g' → rel g' g'' → rel g g'') :
    Compositional (E := E) (P := P) fun p => Moves S rel p where
  ret _ g := hrefl g
  err _ g := hrefl g
  bind hp hk g := by
    refine Prog.wp_bind_of (hp g) (fun a g' h => ?_) (fun _ _ h => h) (fun _ _ h => h)
    exact Prog.wp_mono (fun _ _ h' => htrans h h') _ (hk a g')
  attempt hp g := by
    refine Prog.wp_attempt.mpr (Prog.wp_mono ?_ _ (hp g))
    rintro (a | e | q) g' h <;> exact h

end Moves

end Lib
