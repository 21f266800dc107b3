/-
  # Programs under restricted answers

  `Obeys allowed ok safe p Q`: as long as the actions of `p` are answered as `ok` allows, `p`
  performs only actions that are `allowed`, returns only values with `Q`, and panics at most
  where `safe` allows it.  Nothing is said about its errors.

  `Meets` asks nothing of the actions: it is what a program returns on a host that keeps its
  promises, or that a program does not panic at all.  `Keeps` allows every panic.
-/
import Virtiofsd.Lib.Program

namespace Lib

variable {A : Type} {R : A → Type} {E P α β : Type}

/-- The policy, as a specification without ghost state. -/
def policy (allowed : A → Prop) (ok : (a : A) → R a → Prop) : Spec A R Unit where
  pre a _ := allowed a
  post a _ r _ := ok a r

/-- How a program may end. -/
def MeetsEnd (safe : P → Prop) (Q : α → Prop) : Outcome E P α → Unit → Prop
  | .ok a, _ => Q a
  | .err _, _ => True
  | .panic p, _ => safe p

/-- **What a program does at most, what it returns and where it panics.** -/
def Obeys (allowed : A → Prop) (ok : (a : A) → R a → Prop) (safe : P → Prop) (p : Prog A R E P α)
    (Q : α → Prop) : Prop :=
  p.wp (policy allowed ok) (MeetsEnd safe Q) ()

/-- **What a program returns, and where it panics, if it is answered as `ok` allows.** -/
abbrev Meets (ok : (a : A) → R a → Prop) (safe : P → Prop) (p : Prog A R E P α) (Q : α → Prop) :
    Prop :=
  Obeys (fun _ => True) ok safe p Q

/-- **What a program does at most, and what it returns.** -/
abbrev Keeps (allowed : A → Prop) (ok : (a : A) → R a → Prop) (p : Prog A R E P α)
    (Q : α → Prop) : Prop :=
  Obeys allowed ok (fun _ => True) p Q

namespace Obeys

variable {allowed : A → Prop} {ok : (a : A) → R a → Prop} {safe : P → Prop} {p : Prog A R E P α}
  {k : α → Prog A R E P β} {Q Q' : α → Prop} {Q₁ : β → Prop}

theorem ret {a : α} (h : Q a) : Obeys allowed ok safe (.ret a : Prog A R E P α) Q := h

theorem err {e : E} : Obeys allowed ok safe (.err e : Prog A R E P α) Q := trivial

theorem panic {q : P} (h : safe q) : Obeys allowed ok safe (.panic q : Prog A R E P α) Q := h

theorem act {a : A} {k : R a → Prog A R E P α} (ha : allowed a)
    (h : ∀ r, ok a r → Obeys allowed ok safe (k r) Q) : Obeys allowed ok safe (.act a k) Q :=
  ⟨ha, fun r _ hr => h r hr⟩

theorem perform {a : A} (ha : allowed a) :
    Obeys allowed ok safe (Prog.perform a : Prog A R E P (R a)) (ok a) :=
  act ha fun _ hr => ret hr

section

variable (hp : Obeys allowed ok safe p Q)

include hp

theorem mono (h : ∀ a, Q a → Q' a) : Obeys allowed ok safe p Q' := by
  refine Prog.wp_mono ?_ p hp
  rintro (a | e | q) _ ho
  · exact h a ho
  · exact ho
  · exact ho

theorem bind (hk : ∀ a, Q a → Obeys allowed ok safe (k a) Q₁) :
    Obeys allowed ok safe (p.bind k) Q₁ :=
  Prog.wp_bind_of hp (fun a _ h => hk a h) (fun _ _ _ => trivial) (fun _ _ h => h)

theorem map {f : α → β} : Obeys allowed ok safe (p.bind fun a => .ret (f a)) fun _ => True :=
  bind hp fun _ _ => ret trivial

/-- Going on with the value or the error. -/
theorem attempt_bind {k : Except E α → Prog A R E P β}
    (hok : ∀ a, Q a → Obeys allowed ok safe (k (.ok a)) Q₁)
    (herr : ∀ e, Obeys allowed ok safe (k (.error e)) Q₁) :
    Obeys allowed ok safe (p.attempt.bind k) Q₁ := by
  refine Prog.wp_bind.mpr (Prog.wp_attempt.mpr (Prog.wp_mono ?_ p hp))
  rintro (a | e | q) _ ho
  · exact hok a ho
  · exact herr e
  · exact ho

/-- The value or the error, with what is known of the value. -/
theorem attempt_ok : Obeys allowed ok safe p.attempt (fun r => ∀ a, r = .ok a → Q a) := by
  refine Prog.wp_attempt.mpr (Prog.wp_mono ?_ p hp)
  rintro (a | e | q) _ ho
  · rintro _ ⟨⟩
    exact ho
  · rintro _ ⟨⟩
  · exact ho

theorem attempt : Obeys allowed ok safe p.attempt (fun _ => True) :=
  hp.attempt_ok.mono fun _ _ => trivial

theorem onErr {c : Prog A R E P Unit} (hc : Obeys allowed ok safe c fun _ => True) :
    Obeys allowed ok safe (p.onErr c) Q :=
  hp.attempt_bind (fun _ h => ret h) fun _ => hc.bind fun _ _ => err

theorem ensuring {c : Prog A R E P Unit} (hc : Obeys allowed ok safe c fun _ => True) :
    Obeys allowed ok safe (p.ensuring c) Q :=
  hp.attempt_bind (fun _ h => hc.bind fun _ _ => ret h) fun _ => hc.bind fun _ _ => err

end

theorem ofExcept (r : Except E α) :
    Obeys allowed ok safe (Prog.ofExcept r : Prog A R E P α) (fun _ => True) := by
  cases r with
  | ok a => exact ret trivial
  | error e => exact err

/-- A program over some of the actions, as one over all. -/
theorem mapAct {B : Type} {S : B → Type} {U : Type} {f : A → B} {g : (a : A) → S (f a) → R a}
    {u : P → U} {allowed' : B → Prop} {ok' : (b : B) → S b → Prop} {safe' : U → Prop}
    (hp : Obeys allowed ok safe p Q) (hallowed : ∀ a, allowed a → allowed' (f a))
    (hok : ∀ a r, ok' (f a) r → ok a (g a r)) (hsafe : ∀ q, safe q → safe' (u q)) :
    Obeys allowed' ok' safe' (p.mapAct f g u) Q := by
  induction p with
  | ret a => exact hp
  | err e => trivial
  | panic q => exact hsafe q hp
  | act a k ih => exact act (hallowed a hp.1) fun r hr => ih _ (hp.2 _ () (hok a r hr))

/-- **Soundness for runs**: a handler that answers as `ok` allows while `I` holds, which the
allowed actions keep. -/
theorem run {S : Type} {h : (a : A) → S → R a × S} {I : S → Prop}
    (hp : Obeys allowed ok safe p Q)
    (hI : ∀ a s, allowed a → I s → ok a (h a s).1 ∧ I (h a s).2) {s : S} (hs : I s) :
    MeetsEnd safe Q (p.run h s).1 () ∧ I (p.run h s).2 := by
  induction p generalizing s with
  | ret | panic => exact ⟨hp, hs⟩
  | err e => exact ⟨trivial, hs⟩
  | act a k ih =>
    obtain ⟨hr, hs'⟩ := hI a s hp.1 hs
    exact ih _ (hp.2 _ () hr) hs'

end Obeys

variable {allowed : A → Prop} {ok : (a : A) → R a → Prop} {p : Prog A R E P α} {Q : α → Prop}

/-- Of a program that may panic, nothing is asked. -/
theorem Meets.any (p : Prog A R E P α) : Meets ok (fun _ => True) p fun _ => True := by
  induction p with
  | ret | err | panic => trivial
  | act a k ih => exact .act trivial fun r _ => ih r

theorem Keeps.panic {q : P} : Keeps allowed ok (.panic q : Prog A R E P α) Q := trivial

/-- A stricter policy, or one with fewer answers. -/
theorem Keeps.weaken {allowed' : A → Prop} {ok' : (a : A) → R a → Prop}
    (hallowed : ∀ a, allowed a → allowed' a) (hok : ∀ a r, ok' a r → ok a r)
    (hp : Keeps allowed ok p Q) : Keeps allowed' ok' p Q := by
  induction p with
  | ret a => exact hp
  | err | panic => trivial
  | act a k ih => exact .act (hallowed a hp.1) fun r hr => ih r (hp.2 r () (hok a r hr))

theorem Keeps.mapAct {B : Type} {S : B → Type} {U : Type} {f : A → B}
    {g : (a : A) → S (f a) → R a} {u : P → U} {allowed' : B → Prop} {ok' : (b : B) → S b → Prop}
    (hallowed : ∀ a, allowed a → allowed' (f a)) (hok : ∀ a r, ok' (f a) r → ok a (g a r))
    (hp : Keeps allowed ok p Q) : Keeps allowed' ok' (p.mapAct f g u) Q :=
  Obeys.mapAct hp hallowed hok fun _ _ => trivial

end Lib
