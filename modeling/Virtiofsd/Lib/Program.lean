/-
  # Programs over atomic actions

  A small theory of programs that interact with a shared state through atomic actions.
  A program is a finite tree: it performs an action, receives the answer and goes on, and
  it ends with a value, with an error or in a panic.  Nothing here fixes what the actions
  are or what they do, so the same program text can be

  * RUN from a state by a handler that answers every action (`Prog.run`);
  * INTERLEAVED with other programs over one shared state (`Pool`, `Pool.Step`), every
    action being one step;
  * PROVED about without any of the two, from a specification of the actions alone
    (`Spec`, `Prog.wp`), the specification being sound for both (`wp_run`, `Pool.Step.ok`).

  The specifications that matter most below hand out TOKENS: an action may need some
  tokens, takes them away from the program that performs it, and may give it others.
-/
import Mathlib.Algebra.Order.Group.Multiset
import Mathlib.Algebra.BigOperators.Group.List.Basic

namespace Lib

open List

/-! ## 1. Programs -/

/-- **A program** over actions `A`, where the answer to `a` has type `R a`; it ends in a
value, an error of `E` or a panic of `P`. -/
inductive Prog (A : Type) (R : A → Type) (E P : Type) (α : Type) : Type where
  | ret (a : α)
  | err (e : E)
  | panic (p : P)
  | act (a : A) (k : R a → Prog A R E P α)

/-- How a program ends. -/
inductive Outcome (E P α : Type) : Type where
  | ok (a : α)
  | err (e : E)
  | panic (p : P)
  deriving DecidableEq

namespace Outcome

variable {E P α β : Type}

/-- Outcomes of computations that perform no action, one after the other. -/
protected def bind : Outcome E P α → (α → Outcome E P β) → Outcome E P β
  | ok a, f => f a
  | err e, _ => err e
  | panic p, _ => panic p

instance : Monad (Outcome E P) where
  pure := ok
  bind := Outcome.bind

@[simp] theorem pure_eq (a : α) : (pure a : Outcome E P α) = ok a := rfl

@[simp] theorem ok_bind (a : α) (f : α → Outcome E P β) : (ok a >>= f) = f a := rfl

@[simp] theorem err_bind (e : E) (f : α → Outcome E P β) : (err e >>= f) = err e := rfl

@[simp] theorem panic_bind (p : P) (f : α → Outcome E P β) : (panic p >>= f) = panic p := rfl

variable {f : α → Outcome E P β} {x : Outcome E P α}

theorem bind_eq_ok {b : β} :
    (x >>= f) = ok b ↔ ∃ a, x = ok a ∧ f a = ok b := by
  cases x with
  | ok | err => simp
  | panic p => exact iff_of_false (fun h => nomatch h) (by simp)

theorem bind_eq_panic {p : P} :
    (x >>= f) = panic p ↔ x = panic p ∨ ∃ a, x = ok a ∧ f a = panic p := by
  cases x with
  | ok | err | panic => simp

/-- The outcome with its panic under another name. -/
def mapPanic {U : Type} (u : P → U) : Outcome E P α → Outcome E U α
  | ok a => ok a
  | err e => err e
  | panic p => panic (u p)

/-- The computation does not panic. -/
def Safe (x : Outcome E P α) : Prop := ∀ p, x ≠ panic p

theorem safe_ok (a : α) : (ok a : Outcome E P α).Safe := fun _ h => nomatch h

theorem safe_err (e : E) : (err e : Outcome E P α).Safe := fun _ h => nomatch h

theorem Safe.bind (hx : x.Safe) (hf : ∀ a, x = ok a → (f a).Safe) : (x >>= f).Safe := by
  cases x with
  | ok a => exact hf a rfl
  | err e => exact safe_err e
  | panic p => exact absurd rfl (hx p)

end Outcome

namespace Prog

variable {A : Type} {R : A → Type} {E P α β γ : Type}

protected def bind : Prog A R E P α → (α → Prog A R E P β) → Prog A R E P β
  | ret a, f => f a
  | err e, _ => err e
  | panic p, _ => panic p
  | act a k, f => act a fun r => (k r).bind f

instance : Monad (Prog A R E P) where
  pure := ret
  bind := Prog.bind

/-- Perform one action and return its answer. -/
def perform (a : A) : Prog A R E P (R a) := act a ret

/-- Run a program and hand its value or error to the continuation as a value. -/
def attempt : Prog A R E P α → Prog A R E P (Except E α)
  | ret a => ret (.ok a)
  | err e => ret (.error e)
  | panic p => panic p
  | act a k => act a fun r => (k r).attempt

/-- The `?` operator: go on with the value or stop with the error. -/
def ofExcept : Except E α → Prog A R E P α
  | .ok a => ret a
  | .error e => err e

/-- Run `p`, then `cleanup` whether `p` succeeded or not, then end as `p` did: the scope of
a value whose destructor is `cleanup`. -/
def ensuring (p : Prog A R E P α) (cleanup : Prog A R E P Unit) : Prog A R E P α :=
  p.attempt.bind fun r => cleanup.bind fun _ => ofExcept r

/-- Run `p`, and `cleanup` if it fails: what `?` does to the values in scope. -/
def onErr (p : Prog A R E P α) (cleanup : Prog A R E P Unit) : Prog A R E P α :=
  p.attempt.bind fun r =>
    match r with
    | .ok a => ret a
    | .error e => cleanup.bind fun _ => err e

/-- Use a program over the actions `A` and the panics `P` as one over `B` and `U`. -/
def mapAct {B : Type} {S : B → Type} {U : Type} (f : A → B) (g : (a : A) → S (f a) → R a)
    (u : P → U) : Prog A R E P α → Prog B S E U α
  | ret a => ret a
  | err e => err e
  | panic p => panic (u p)
  | act a k => act (f a) fun r => (k (g a r)).mapAct f g u

@[simp] theorem pure_eq (a : α) : (pure a : Prog A R E P α) = ret a := rfl

@[simp] theorem bind_eq (p : Prog A R E P α) (f : α → Prog A R E P β) :
    p >>= f = p.bind f := rfl

@[simp] theorem bind_ret (a : α) (f : α → Prog A R E P β) : (ret a).bind f = f a := rfl

@[simp] theorem bind_err (e : E) (f : α → Prog A R E P β) :
    (err e : Prog A R E P α).bind f = err e := rfl

@[simp] theorem bind_panic (p : P) (f : α → Prog A R E P β) :
    (panic p : Prog A R E P α).bind f = panic p := rfl

@[simp] theorem bind_act (a : A) (k : R a → Prog A R E P α) (f : α → Prog A R E P β) :
    (act a k).bind f = act a fun r => (k r).bind f := rfl

theorem bind_ret_right (p : Prog A R E P α) : p.bind ret = p := by
  induction p with
  | ret | err | panic => rfl
  | act a k ih => exact congrArg (act a) (funext fun r => ih r)

theorem bind_assoc (p : Prog A R E P α) (f : α → Prog A R E P β) (g : β → Prog A R E P γ) :
    (p.bind f).bind g = p.bind fun a => (f a).bind g := by
  induction p with
  | ret | err | panic => rfl
  | act a k ih => exact congrArg (act a) (funext fun r => ih r)

theorem mapAct_bind {B : Type} {S : B → Type} {U : Type} {f : A → B}
    {g : (a : A) → S (f a) → R a} {u : P → U} (p : Prog A R E P α) (k : α → Prog A R E P β) :
    (p.bind k).mapAct f g u = (p.mapAct f g u).bind fun a => (k a).mapAct f g u := by
  induction p with
  | ret | err | panic => rfl
  | act a k ih => exact congrArg (act (f a)) (funext fun r => ih (g a r))

theorem mapAct_attempt {B : Type} {S : B → Type} {U : Type} {f : A → B}
    {g : (a : A) → S (f a) → R a} {u : P → U} (p : Prog A R E P α) :
    p.attempt.mapAct f g u = (p.mapAct f g u).attempt := by
  induction p with
  | ret | err | panic => rfl
  | act a k ih => exact congrArg (act (f a)) (funext fun r => ih (g a r))

/-! ## 2. Running a program -/

section Run

variable {S : Type} (h : (a : A) → S → R a × S)

/-- **Run a program from a state**, the handler `h` answering its actions. -/
def run : Prog A R E P α → S → Outcome E P α × S
  | ret a, s => (.ok a, s)
  | err e, s => (.err e, s)
  | panic p, s => (.panic p, s)
  | act a k, s => (k (h a s).1).run (h a s).2

@[simp] theorem run_ret (a : α) (s : S) :
    (ret a : Prog A R E P α).run h s = (.ok a, s) := rfl

@[simp] theorem run_err (e : E) (s : S) :
    (err e : Prog A R E P α).run h s = (.err e, s) := rfl

@[simp] theorem run_panic (p : P) (s : S) :
    (panic p : Prog A R E P α).run h s = (.panic p, s) := rfl

@[simp] theorem run_act (a : A) (k : R a → Prog A R E P α) (s : S) :
    (act a k).run h s = (k (h a s).1).run h (h a s).2 := rfl

theorem run_bind (p : Prog A R E P α) (f : α → Prog A R E P β) (s : S) :
    (p.bind f).run h s =
      match p.run h s with
      | (.ok a, s') => (f a).run h s'
      | (.err e, s') => (.err e, s')
      | (.panic q, s') => (.panic q, s') := by
  induction p generalizing s with
  | ret | err | panic => rfl
  | act a k ih => exact ih _ _

variable {f : α → Prog A R E P β} {p : Prog A R E P α}

theorem run_bind_of_ok {s s' : S} {a : α} (hp : p.run h s = (.ok a, s')) :
    (p.bind f).run h s = (f a).run h s' := by
  rw [run_bind, hp]

theorem run_bind_of_err {s s' : S} {e : E} (hp : p.run h s = (.err e, s')) :
    (p.bind f).run h s = (.err e, s') := by
  rw [run_bind, hp]

theorem run_bind_of_panic {s s' : S} {q : P} (hp : p.run h s = (.panic q, s')) :
    (p.bind f).run h s = (.panic q, s') := by
  rw [run_bind, hp]

/-- The first `n` actions of a program. -/
def advance : Nat → Prog A R E P α → S → Prog A R E P α × S
  | n + 1, act a k, s => advance n (k (h a s).1) (h a s).2
  | _, p, s => (p, s)

/-- **A program that runs alone** keeps what each of its actions keeps. -/
theorem advance_keeps {I : Prog A R E P α → S → Prop}
    (hact : ∀ a k s, I (act a k) s → I (k (h a s).1) (h a s).2) (n : Nat)
    {p p' : Prog A R E P α} {s s' : S} (hr : p.advance h n s = (p', s')) (hp : I p s) :
    I p' s' := by
  induction n generalizing p s with
  | zero =>
    obtain ⟨rfl, rfl⟩ : p = p' ∧ s = s' := by
      cases p <;> exact Prod.mk.inj hr
    exact hp
  | succ n ih =>
    cases p with
    | act a k => exact ih hr (hact a k s hp)
    | _ =>
      cases hr
      exact hp

theorem run_attempt (p : Prog A R E P α) (s : S) :
    p.attempt.run h s =
      match p.run h s with
      | (.ok a, s') => (.ok (.ok a), s')
      | (.err e, s') => (.ok (.error e), s')
      | (.panic q, s') => (.panic q, s') := by
  induction p generalizing s with
  | ret | err | panic => rfl
  | act a k ih => exact ih _ _

/-- What a sequence has done that has returned. -/
theorem of_run_bind {s s'' : S} {b : β} (hr : (p.bind f).run h s = (.ok b, s'')) :
    ∃ a s', p.run h s = (.ok a, s') ∧ (f a).run h s' = (.ok b, s'') := by
  rw [run_bind] at hr
  rcases hp : p.run h s with ⟨a | e | q, s'⟩ <;> rw [hp] at hr
  · exact ⟨a, s', rfl, hr⟩
  · simp at hr
  · simp at hr

/-- A sequence that fails: in its first part, or in the second. -/
theorem of_run_bind_err {s s'' : S} {e : E} (hr : (p.bind f).run h s = (.err e, s'')) :
    p.run h s = (.err e, s'') ∨
      ∃ a s', p.run h s = (.ok a, s') ∧ (f a).run h s' = (.err e, s'') := by
  rw [run_bind] at hr
  rcases hp : p.run h s with ⟨a | e' | q, s'⟩ <;> rw [hp] at hr
  · exact .inr ⟨a, s', rfl, hr⟩
  · cases hr
    exact .inl rfl
  · cases hr

/-- The actions of a run, with their answers. -/
def trace (h : (a : A) → S → R a × S) : Prog A R E P α → S → List (Sigma R)
  | ret _, _ => []
  | err _, _ => []
  | panic _, _ => []
  | act a k, s => ⟨a, (h a s).1⟩ :: trace h (k (h a s).1) (h a s).2

theorem trace_bind (p : Prog A R E P α) (f : α → Prog A R E P β) (s : S) :
    (p.bind f).trace h s = p.trace h s ++
      match p.run h s with
      | (.ok a, s') => (f a).trace h s'
      | (.err _, _) => []
      | (.panic _, _) => [] := by
  induction p generalizing s with
  | ret | err | panic => rfl
  | act a k ih => exact congrArg (_ :: ·) (ih _ _)

/-- What no action changes, no program changes. -/
theorem run_preserves {I : S → Prop} (hI : ∀ a s, I s → I (h a s).2) (p : Prog A R E P α) {s : S}
    (hs : I s) : I (p.run h s).2 := by
  induction p generalizing s with
  | ret | err | panic => exact hs
  | act a k ih => exact ih _ (hI a s hs)

end Run

end Prog

/-! ## 3. Specifications of the actions and weakest preconditions -/

/-- **A specification of the actions** over a ghost state `G`: what must hold before an
action, and which answers and next ghost states are possible after it. -/
structure Spec (A : Type) (R : A → Type) (G : Type) where
  pre : A → G → Prop
  post : (a : A) → G → R a → G → Prop

/-- The postcondition of `p` in `p.bind f`: go on with `f`, or end as `p` did. -/
def Outcome.andThen {E P α β G : Type} (f : α → G → Prop) (Q : Outcome E P β → G → Prop) :
    Outcome E P α → G → Prop
  | .ok a, g => f a g
  | .err e, g => Q (.err e) g
  | .panic p, g => Q (.panic p) g

namespace Prog

variable {A : Type} {R : A → Type} {E P α β G : Type} {S : Spec A R G}

/-- **The weakest precondition** of a program: every action it performs is allowed, and
however the actions are answered it ends as `Q` says. -/
def wp (S : Spec A R G) : Prog A R E P α → (Outcome E P α → G → Prop) → G → Prop
  | ret a, Q, g => Q (.ok a) g
  | err e, Q, g => Q (.err e) g
  | panic p, Q, g => Q (.panic p) g
  | act a k, Q, g => S.pre a g ∧ ∀ r g', S.post a g r g' → (k r).wp S Q g'

variable {Q Q' : Outcome E P α → G → Prop} {g : G}

@[simp] theorem wp_ret {a : α} : (ret a : Prog A R E P α).wp S Q g ↔ Q (.ok a) g := Iff.rfl

@[simp] theorem wp_err {e : E} : (err e : Prog A R E P α).wp S Q g ↔ Q (.err e) g := Iff.rfl

@[simp] theorem wp_panic {p : P} :
    (panic p : Prog A R E P α).wp S Q g ↔ Q (.panic p) g := Iff.rfl

theorem wp_act {a : A} {k : R a → Prog A R E P α} :
    (act a k).wp S Q g ↔ S.pre a g ∧ ∀ r g', S.post a g r g' → (k r).wp S Q g' := Iff.rfl

theorem wp_mono (hQ : ∀ o g, Q o g → Q' o g) (p : Prog A R E P α) :
    ∀ {g}, p.wp S Q g → p.wp S Q' g := by
  induction p with
  | ret | err | panic => exact fun h => hQ _ _ h
  | act a k ih => exact fun h => ⟨h.1, fun r g' hr => ih r (h.2 r g' hr)⟩

theorem wp_bind {p : Prog A R E P β} {f : β → Prog A R E P α} :
    (p.bind f).wp S Q g ↔ p.wp S (Outcome.andThen (fun b => (f b).wp S Q) Q) g := by
  induction p generalizing g with
  | ret | err | panic => rfl
  | act a k ih =>
    simp only [bind_act, wp_act]
    exact and_congr_right fun _ => forall₃_congr fun r g' _ => ih r

/-- Sequencing with a specification of the first program. -/
theorem wp_bind_of {p : Prog A R E P β} {f : β → Prog A R E P α}
    {Q₁ : Outcome E P β → G → Prop} (hp : p.wp S Q₁ g)
    (hok : ∀ b g', Q₁ (.ok b) g' → (f b).wp S Q g')
    (herr : ∀ e g', Q₁ (.err e) g' → Q (.err e) g')
    (hpanic : ∀ q g', Q₁ (.panic q) g' → Q (.panic q) g') : (p.bind f).wp S Q g := by
  refine wp_bind.mpr (wp_mono ?_ p hp)
  rintro (b | e | q) g' h
  · exact hok b g' h
  · exact herr e g' h
  · exact hpanic q g' h

/-- The postcondition of `p` in `p.attempt`. -/
def attemptPost (Q : Outcome E P (Except E α) → G → Prop) : Outcome E P α → G → Prop
  | .ok a, g => Q (.ok (.ok a)) g
  | .err e, g => Q (.ok (.error e)) g
  | .panic p, g => Q (.panic p) g

theorem wp_attempt {p : Prog A R E P α} {Q : Outcome E P (Except E α) → G → Prop} :
    p.attempt.wp S Q g ↔ p.wp S (attemptPost Q) g := by
  induction p generalizing g with
  | ret | err | panic => rfl
  | act a k ih =>
    simp only [attempt, wp_act]
    exact and_congr_right fun _ => forall₃_congr fun r g' _ => ih r

/-- **Soundness for runs.**  If the states represent ghost states through `Rep` and the
handler meets the specification, a run ends as the weakest precondition says. -/
theorem wp_run {T : Type} {h : (a : A) → T → R a × T} {Rep : T → G → Prop}
    (hh : ∀ a s g, Rep s g → S.pre a g → ∃ g', S.post a g (h a s).1 g' ∧ Rep (h a s).2 g')
    (p : Prog A R E P α) :
    ∀ {s g}, Rep s g → p.wp S Q g → ∃ g', Rep (p.run h s).2 g' ∧ Q (p.run h s).1 g' := by
  induction p with
  | ret | err | panic => exact fun hs hp => ⟨_, hs, hp⟩
  | act a k ih =>
    intro s g hs hp
    obtain ⟨g', hpost, hs'⟩ := hh a s g hs hp.1
    exact ih _ hs' (hp.2 _ g' hpost)

end Prog

/-! ## 4. Tokens and interleavings -/

/-- **Actions that move tokens.**  Performing `a` takes `use a` from the program; the answer
`r` gives it `give a r`; `may a τ r` is what holding the tokens `τ` tells about the answer. -/
structure TokenSpec (A : Type) (R : A → Type) (T : Type) where
  use : A → Multiset T
  give : (a : A) → R a → Multiset T
  may : (a : A) → Multiset T → R a → Prop

namespace TokenSpec

variable {A : Type} {R : A → Type} {T : Type} [DecidableEq T]

/-- The tokens left after `a` was answered with `r`. -/
def after (ts : TokenSpec A R T) (a : A) (r : R a) (τ : Multiset T) : Multiset T :=
  τ - ts.use a + ts.give a r

omit [DecidableEq T] in
theorem use_le {ts : TokenSpec A R T} {a : A} {τ : Multiset T} (h : ts.use a = 0) :
    ts.use a ≤ τ := h ▸ Multiset.zero_le τ

/-- An action that uses none. -/
theorem after_of_use {ts : TokenSpec A R T} {a : A} {r : R a} {τ : Multiset T}
    (h : ts.use a = 0) : ts.after a r τ = τ + ts.give a r := by
  rw [after, h, tsub_zero]

/-- A token specification as a specification over the tokens a program holds. -/
def toSpec (ts : TokenSpec A R T) : Spec A R (Multiset T) where
  pre a τ := ts.use a ≤ τ
  post a τ r τ' := ts.may a τ r ∧ τ' = ts.after a r τ

end TokenSpec

section

variable {β : Type} {P : β → Prop} {l₁ l₂ : List β} {t t' : β}

/-- What all threads are, if one of them ends. -/
theorem forall_mem_remove (h : ∀ u ∈ l₁ ++ t :: l₂, P u) : ∀ u ∈ l₁ ++ l₂, P u := by
  obtain ⟨h₁, h₂⟩ := forall_mem_append.mp h
  exact forall_mem_append.mpr ⟨h₁, (forall_mem_cons.mp h₂).2⟩

/-- What the threads but one are, whatever that one does. -/
theorem forall_mem_replace (h : ∀ u ∈ l₁ ++ t :: l₂, P u) (ht : P t') :
    ∀ u ∈ l₁ ++ t' :: l₂, P u := by
  obtain ⟨h₁, h₂⟩ := forall_mem_append.mp h
  exact forall_mem_append.mpr
    ⟨h₁, forall_mem_cons.mpr ⟨ht, (forall_mem_cons.mp h₂).2⟩⟩

end

/-- **Programs over one shared state**, each with the tokens it holds. -/
structure Pool (A : Type) (R : A → Type) (E P α S T : Type) where
  shared : S
  threads : List (Prog A R E P α × Multiset T)

namespace Pool

variable {A : Type} {R : A → Type} {E P α S T : Type} [DecidableEq T]
variable {ts : TokenSpec A R T} {sem : (a : A) → S → R a → S → Prop}

/-- All tokens the programs hold. -/
def tokens (p : Pool A R E P α S T) : Multiset T := (p.threads.map Prod.snd).sum

omit [DecidableEq T] in
/-- The tokens of one of the programs, and those of all others. -/
theorem tokens_insert (s s' : S) (l₁ l₂ : List (Prog A R E P α × Multiset T))
    (t : Prog A R E P α × Multiset T) :
    tokens ⟨s, l₁ ++ t :: l₂⟩ = tokens ⟨s', l₁ ++ l₂⟩ + t.2 := by
  simp only [tokens, map_append, map_cons, sum_append, sum_cons]
  ac_rfl

/-- **One step of an interleaving**: one of the programs performs its next action. -/
inductive Step (ts : TokenSpec A R T) (sem : (a : A) → S → R a → S → Prop) :
    Pool A R E P α S T → Pool A R E P α S T → Prop where
  | act {s s' : S} {l₁ l₂ : List (Prog A R E P α × Multiset T)} {a : A}
      {k : R a → Prog A R E P α} {τ : Multiset T} {r : R a} (h : sem a s r s') :
      Step ts sem ⟨s, l₁ ++ (.act a k, τ) :: l₂⟩ ⟨s', l₁ ++ (k r, ts.after a r τ) :: l₂⟩

/-- The shared state accounts for all tokens, those held elsewhere (`rest`) included, and
every program is within its weakest precondition. -/
structure Ok (ts : TokenSpec A R T) (Inv : S → Multiset T → Prop)
    (Q : Outcome E P α → Multiset T → Prop) (rest : Multiset T)
    (p : Pool A R E P α S T) : Prop where
  inv : Inv p.shared (rest + p.tokens)
  typed : ∀ t ∈ p.threads, t.1.wp ts.toSpec Q t.2

/-- **Soundness for interleavings.**  If every action, performed by a program that holds the
tokens it needs, keeps the accounting, then every step of an interleaving does. -/
theorem Step.ok {Inv : S → Multiset T → Prop} {Q : Outcome E P α → Multiset T → Prop}
    {rest : Multiset T} {p p' : Pool A R E P α S T}
    (hsound : ∀ {a s r s' τ rest}, Inv s (rest + τ) → ts.use a ≤ τ → sem a s r s' →
      ts.may a τ r ∧ Inv s' (rest + ts.after a r τ))
    (hstep : Step ts sem p p') (hp : p.Ok ts Inv Q rest) : p'.Ok ts Inv Q rest := by
  obtain ⟨hsem⟩ := hstep
  rename_i s s' l₁ l₂ a k τ r
  have hact : (Prog.act a k).wp ts.toSpec Q τ := hp.typed (.act a k, τ) (by simp)
  have hinv := hp.inv
  rw [tokens_insert s s, ← add_assoc] at hinv
  obtain ⟨hmay, hinv'⟩ := hsound hinv hact.1 hsem
  refine ⟨?_, ?_⟩
  · rw [tokens_insert s' s, ← add_assoc]
    exact hinv'
  · exact forall_mem_replace hp.typed (hact.2 r _ ⟨hmay, rfl⟩)

end Pool

end Lib
