/-
  # What a program does with its tokens

  `Spends ts safe p use give` says of a program over actions that move tokens: started with
  the tokens `use`, and whatever else its caller holds, it performs only actions it has the
  tokens for, it ends with the tokens `give a` if its value is `a` and with none if it
  fails, and it panics at most where `safe` allows it.

  The rules below follow the program text: one for each way programs are put together.
  Tokens that a fallible step does not use can only be carried past it by a step that gives
  them back when it fails (`attempt`, `onErr`, `ensuring`), which is why a leak shows up as
  a rule that does not apply.  `Settles` is the same for programs that cannot fail, and
`Borrows` for programs that look at tokens of their caller, who keeps them.
-/
import Virtiofsd.Lib.Program

namespace Lib

variable {A : Type} {R : A → Type} {E P α β T : Type} [DecidableEq T]
variable {ts : TokenSpec A R T} {safe : P → Prop}

/-- How a program may end: with `give a` on top of what its caller holds, or with nothing. -/
def Ends (safe : P → Prop) (give : α → Multiset T) (τ : Multiset T) :
    Outcome E P α → Multiset T → Prop
  | .ok a, σ => σ = τ + give a
  | .err _, σ => σ = τ
  | .panic p, _ => safe p

/-- **What a program does with its tokens.** -/
def Spends (ts : TokenSpec A R T) (safe : P → Prop) (p : Prog A R E P α) (use : Multiset T)
    (give : α → Multiset T) : Prop :=
  ∀ τ, p.wp ts.toSpec (Ends safe give τ) (τ + use)

/-- One action, with the tokens `v` it does not need. -/
theorem wp_act_of {Q : Outcome E P α → Multiset T → Prop} {a : A} {k : R a → Prog A R E P α}
    {τ v : Multiset T} (hk : ∀ r, ts.may a (τ + (ts.use a + v)) r →
      (k r).wp ts.toSpec Q (τ + (ts.give a r + v))) :
    (Prog.act a k).wp ts.toSpec Q (τ + (ts.use a + v)) := by
  refine ⟨?_, ?_⟩
  · exact le_trans (Multiset.le_add_right _ _) (Multiset.le_add_left _ _)
  · rintro r τ' ⟨hmay, rfl⟩
    have hafter : ts.after a r (τ + (ts.use a + v)) = τ + (ts.give a r + v) := by
      rw [TokenSpec.after, add_left_comm, add_tsub_cancel_left]
      ac_rfl
    rw [hafter]
    exact hk r hmay

variable {Q : Outcome E P β → Multiset T → Prop}

/-- Going on with the value or the error of a program that ends as its tokens say. -/
theorem wp_attempt_bind_of {p : Prog A R E P α} {k : Except E α → Prog A R E P β}
    {m : α → Multiset T} {σ τ : Multiset T} (hp : p.wp ts.toSpec (Ends safe m τ) σ)
    (hok : ∀ a, (k (.ok a)).wp ts.toSpec Q (τ + m a))
    (herr : ∀ e, (k (.error e)).wp ts.toSpec Q τ) (hpanic : ∀ q σ, safe q → Q (.panic q) σ) :
    (p.attempt.bind k).wp ts.toSpec Q σ := by
  refine Prog.wp_bind.mpr (Prog.wp_attempt.mpr (Prog.wp_mono ?_ p hp))
  rintro (a | e | q) ρ hρ
  · obtain rfl : ρ = τ + m a := hρ
    exact hok a
  · obtain rfl : ρ = τ := hρ
    exact herr e
  · exact hpanic q ρ hρ

namespace Spends

variable {p : Prog A R E P α} {k : α → Prog A R E P β} {u v w : Multiset T}
  {m : α → Multiset T} {g : β → Multiset T}

theorem ret {a : α} : Spends ts safe (.ret a : Prog A R E P α) (m a) m := fun _ => rfl

theorem done {a : α} : Spends ts safe (.ret a : Prog A R E P α) 0 fun _ => 0 := fun _ => rfl

theorem err {e : E} : Spends ts safe (.err e : Prog A R E P α) 0 m := fun τ => add_zero τ

theorem panic {q : P} (hq : safe q) : Spends ts safe (.panic q : Prog A R E P α) u m :=
  fun _ => hq

theorem act {a : A} {k : R a → Prog A R E P α}
    (hk : ∀ τ r, ts.may a (τ + (ts.use a + v)) r → Spends ts safe (k r) (ts.give a r + v) m) :
    Spends ts safe (.act a k) (ts.use a + v) m :=
  fun τ => wp_act_of fun r hmay => hk τ r hmay τ

section

variable (hp : Spends ts safe p u m)

include hp

theorem bind (hk : ∀ a, Spends ts safe (k a) (m a) g) :
    Spends ts safe (p.bind k) u g :=
  fun τ => Prog.wp_bind_of (hp τ) (fun a _ h => h ▸ hk a τ) (fun _ _ h => h) (fun _ _ h => h)

/-- Going on with the value or the error: the tokens `v` are carried past `p`. -/
theorem attempt_bind {k : Except E α → Prog A R E P β}
    (hok : ∀ a, Spends ts safe (k (.ok a)) (m a + v) g)
    (herr : ∀ e, Spends ts safe (k (.error e)) v g) :
    Spends ts safe (p.attempt.bind k) (u + v) g := by
  intro τ
  rw [add_comm u, ← add_assoc]
  refine wp_attempt_bind_of (hp (τ + v)) (fun a => ?_) (fun e => herr e τ) fun _ _ hq => hq
  rw [add_assoc, add_comm v]
  exact hok a τ

theorem onErr {c : Prog A R E P Unit} (hc : Spends ts safe c v fun _ => 0) :
    Spends ts safe (p.onErr c) (u + v) (fun a => m a + v) := by
  refine hp.attempt_bind (fun a => ?_) (fun e => ?_)
  · exact ret (m := fun a => m a + v)
  · exact hc.bind fun _ => err

theorem ensuring {c : Prog A R E P Unit} (hc : Spends ts safe c v fun _ => 0) (hm : ∀ a, m a = 0) :
    Spends ts safe (p.ensuring c) (u + v) (fun _ => 0) := by
  refine hp.attempt_bind (fun a => ?_) (fun e => ?_)
  · rw [hm, zero_add]
    exact hc.bind fun _ => ret (m := fun _ => 0)
  · exact hc.bind fun _ => err

/-- The tokens as they are, by an equation. -/
theorem of_eq (hu : u = w) : Spends ts safe p w m := hu ▸ hp

end

end Spends

/-- How a program that cannot fail may end. -/
def EndsWell (safe : P → Prop) (give : α → Multiset T) (τ : Multiset T) :
    Outcome E P α → Multiset T → Prop
  | .ok a, σ => σ = τ + give a
  | .err _, _ => False
  | .panic p, _ => safe p

/-- **What a program that cannot fail does with its tokens.** -/
def Settles (ts : TokenSpec A R T) (safe : P → Prop) (p : Prog A R E P α) (use : Multiset T)
    (give : α → Multiset T) : Prop :=
  ∀ τ, p.wp ts.toSpec (EndsWell safe give τ) (τ + use)

namespace Settles

variable {p : Prog A R E P α} {k : α → Prog A R E P β} {u v w : Multiset T}
  {m : α → Multiset T} {g : β → Multiset T}

theorem ret {a : α} : Settles ts safe (.ret a : Prog A R E P α) (m a) m := fun _ => rfl

theorem perform {a : A} : Settles ts safe (Prog.perform a : Prog A R E P (R a)) (ts.use a)
    (ts.give a) := by
  intro τ
  refine ⟨Multiset.le_add_left _ _, ?_⟩
  rintro r τ' ⟨-, rfl⟩
  show _ = _
  rw [TokenSpec.after, add_tsub_cancel_right]

theorem act {a : A} {k : R a → Prog A R E P α}
    (hk : ∀ τ r, ts.may a (τ + (ts.use a + v)) r → Settles ts safe (k r) (ts.give a r + v) m) :
    Settles ts safe (.act a k) (ts.use a + v) m :=
  fun τ => wp_act_of fun r hmay => hk τ r hmay τ

section

variable (hp : Settles ts safe p u m)

include hp

theorem spends : Spends ts safe p u m := by
  intro τ
  refine Prog.wp_mono ?_ p (hp τ)
  rintro (a | e | q) σ hσ
  · exact hσ
  · exact hσ.elim
  · exact hσ

/-- Past a program that cannot fail, tokens are carried without further ado. -/
theorem wp_bind {τ : Multiset T} (hk : ∀ a, (k a).wp ts.toSpec Q (τ + (m a + v)))
    (hpanic : ∀ q σ, safe q → Q (.panic q) σ) :
    (p.bind k).wp ts.toSpec Q (τ + (u + v)) := by
  have hp' := hp (τ + v)
  rw [show τ + v + u = τ + (u + v) by ac_rfl] at hp'
  refine Prog.wp_bind.mpr (Prog.wp_mono ?_ p hp')
  rintro (a | e | q) σ hσ
  · obtain rfl : σ = τ + v + m a := hσ
    rw [show τ + v + m a = τ + (m a + v) by ac_rfl]
    exact hk a
  · exact hσ.elim
  · exact hpanic q σ hσ

theorem bind_spends (hk : ∀ a, Spends ts safe (k a) (m a + v) g) :
    Spends ts safe (p.bind k) (u + v) g :=
  fun τ => hp.wp_bind (fun a => hk a τ) fun _ _ hq => hq

theorem bind (hk : ∀ a, Settles ts safe (k a) (m a + v) g) :
    Settles ts safe (p.bind k) (u + v) g :=
  fun τ => hp.wp_bind (fun a => hk a τ) fun _ _ hq => hq

theorem of_eq (hu : u = w) : Settles ts safe p w m := hu ▸ hp

end

end Settles

/-- **What a program does that borrows the tokens `kept`**: its caller holds them all along,
and has them when it fails. -/
def Borrows (ts : TokenSpec A R T) (safe : P → Prop) (kept : Multiset T) (p : Prog A R E P α)
    (use : Multiset T) (give : α → Multiset T) : Prop :=
  ∀ τ, p.wp ts.toSpec (Ends safe give (τ + kept)) (τ + kept + use)

namespace Borrows

variable {p : Prog A R E P α} {k : α → Prog A R E P β} {kept u v w : Multiset T}
  {m : α → Multiset T} {g : β → Multiset T}

theorem of_spends (hp : Spends ts safe p u m) : Borrows ts safe kept p u m :=
  fun τ => hp (τ + kept)

/-- A program that takes the tokens and gives them back in any case borrows them. -/
theorem of_settles (hp : Settles ts safe p kept (fun a => m a + kept)) :
    Borrows ts safe kept p 0 m := by
  intro τ
  rw [add_zero]
  refine Prog.wp_mono ?_ p (hp τ)
  rintro (a | e | q) σ hσ
  · obtain rfl : σ = τ + (m a + kept) := hσ
    show _ = _
    ac_rfl
  · exact hσ.elim
  · exact hσ

section

variable (hp : Borrows ts safe kept p u m)

include hp

theorem bind (hk : ∀ a, Borrows ts safe kept (k a) (m a) g) :
    Borrows ts safe kept (p.bind k) u g :=
  fun τ => Prog.wp_bind_of (hp τ) (fun a _ h => h ▸ hk a τ) (fun _ _ h => h) (fun _ _ h => h)

theorem onErr {c : Prog A R E P Unit} (hc : Spends ts safe c v fun _ => 0) :
    Borrows ts safe kept (p.onErr c) (u + v) (fun a => m a + v) := by
  intro τ
  rw [show τ + kept + (u + v) = τ + v + kept + u by ac_rfl]
  refine wp_attempt_bind_of (hp (τ + v)) (fun a => ?_) (fun e => ?_) fun _ _ hq => hq
  · show τ + v + kept + m a = τ + kept + (m a + v)
    ac_rfl
  · rw [add_right_comm]
    exact (hc.bind (g := fun a => m a + v) fun _ => Spends.err) (τ + kept)

/-- The caller, who has kept the tokens, goes on with the value or the error. -/
theorem attempt_bind {k : Except E α → Prog A R E P β}
    (hok : ∀ a, Settles ts safe (k (.ok a)) (m a + (kept + v)) g)
    (herr : ∀ e, Settles ts safe (k (.error e)) (kept + v) g) :
    Settles ts safe (p.attempt.bind k) (u + (kept + v)) g := by
  intro τ
  rw [show τ + (u + (kept + v)) = τ + v + kept + u by ac_rfl]
  refine wp_attempt_bind_of (hp (τ + v)) (fun a => ?_) (fun e => ?_) fun _ _ hq => hq
  · rw [show τ + v + kept + m a = τ + (m a + (kept + v)) by ac_rfl]
    exact hok a τ
  · rw [show τ + v + kept = τ + (kept + v) by ac_rfl]
    exact herr e τ

theorem of_eq (hu : u = w) : Borrows ts safe kept p w m :=
  hu ▸ hp

end

end Borrows

/-- A program over actions that move no tokens can run anywhere. -/
theorem spends_mapAct {B : Type} {S : B → Type} {U : Type} {f : B → A}
    {g : (b : B) → R (f b) → S b} {u : U → P} (huse : ∀ b, ts.use (f b) = 0)
    (hgive : ∀ b r, ts.give (f b) r = 0) (hsafe : ∀ q, safe (u q)) (p : Prog B S E U α) :
    Spends ts safe (p.mapAct f g u) 0 (fun _ => 0) := by
  induction p with
  | ret a => exact Spends.done
  | err e => exact Spends.err
  | panic q => exact Spends.panic (hsafe q)
  | act b k ih =>
    refine Spends.of_eq (u := ts.use (f b) + 0) (Spends.act fun τ r _ => ?_)
      (by rw [huse, add_zero])
    rw [hgive, add_zero]
    exact ih _

end Lib
