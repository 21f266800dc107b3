/-
  # Threads that rely on each other

  Any number of threads act on one shared state, one action at a time.  What thread `n` may RELY
  on is a relation between states: the others move the state along `rely n`, and never out of the
  invariant.  In return each of its own actions must keep the invariant, and what all the others
  rely on.

  `alone` is what one thread then knows of the state, from one of its actions to the next.  If
  every program that is started is fine on its own (`Fine`), the invariant holds in every run, and
  the postcondition of every thread that has come to its end.
-/
import Virtiofsd.Lib.Program

namespace Lib

variable {A : Type} {R : A → Type} {E P α S : Type}

/-- **The rules of a shared state**: what an action of a thread does, what a thread relies on,
and what always holds. -/
structure Rules (A : Type) (R : A → Type) (S : Type) where
  sem : Nat → (a : A) → S → R a → S → Prop
  rely : Nat → S → S → Prop
  inv : S → Prop
  refl : ∀ n s, rely n s s
  trans : ∀ {n s s' s''}, rely n s s' → rely n s' s'' → rely n s s''

namespace Rules

variable {ρ : Rules A R S} {n m : Nat} {s s' : S}

/-- An action of thread `n` in the state `s` is no surprise to the others. -/
def Guarantees (ρ : Rules A R S) (n : Nat) (a : A) (s : S) : Prop :=
  ∀ r s', ρ.sem n a s r s' → ρ.inv s' ∧ ∀ m, m ≠ n → ρ.rely m s s'

/-- **One thread**, with the others moving the state between its actions. -/
def alone (ρ : Rules A R S) (n : Nat) : Spec A R S where
  pre a s := ρ.Guarantees n a s
  post a s r s'' := ∃ s', ρ.sem n a s r s' ∧ ρ.inv s' ∧ ρ.rely n s' s'' ∧ ρ.inv s''

/-- What the others cannot make false. -/
def Stable (ρ : Rules A R S) (n : Nat) (K : S → Prop) : Prop :=
  ∀ s s', K s → ρ.inv s → ρ.rely n s s' → ρ.inv s' → K s'

theorem Stable.and {K K' : S → Prop} (h : ρ.Stable n K) (h' : ρ.Stable n K') :
    ρ.Stable n fun s => K s ∧ K' s :=
  fun s s' hK hinv hrely hinv' => ⟨h s s' hK.1 hinv hrely hinv', h' s s' hK.2 hinv hrely hinv'⟩

theorem Stable.imp {p : Prop} {K : S → Prop} (h : ρ.Stable n K) : ρ.Stable n fun s => p → K s :=
  fun s s' hK hinv hrely hinv' hp => h s s' (hK hp) hinv hrely hinv'

theorem Stable.forall {ι : Type} {K : ι → S → Prop} (h : ∀ i, ρ.Stable n (K i)) :
    ρ.Stable n fun s => ∀ i, K i s :=
  fun s s' hK hinv hrely hinv' i => h i s s' (hK i) hinv hrely hinv'

/-- **A triple**: the program is fine from every state in which `K` holds. -/
def Triple (ρ : Rules A R S) (n : Nat) (K : S → Prop) (p : Prog A R E P α)
    (Q : Outcome E P α → S → Prop) : Prop :=
  ∀ s, ρ.inv s → K s → p.wp (ρ.alone n) Q s

variable {K : S → Prop} {Q : Outcome E P α → S → Prop}

theorem Triple.mono {K' : S → Prop} {p : Prog A R E P α} (h : ρ.Triple n K' p Q)
    (hK : ∀ s, K s → K' s) : ρ.Triple n K p Q :=
  fun s hinv hs => h s hinv (hK s hs)

/-- **The rule for one action**: it is no surprise, and what is known after it is stable. -/
theorem Triple.act {a : A} {k : R a → Prog A R E P α} (K' : R a → S → Prop)
    (hact : ∀ s r s', ρ.inv s → K s → ρ.sem n a s r s' →
      (ρ.inv s' ∧ ∀ m, m ≠ n → ρ.rely m s s') ∧ K' r s')
    (hstable : ∀ r, ρ.Stable n (K' r)) (hk : ∀ r, ρ.Triple n (K' r) (k r) Q) :
    ρ.Triple n K (.act a k) Q := by
  intro s hinv hK
  refine ⟨fun r s' hsem => (hact s r s' hinv hK hsem).1, ?_⟩
  rintro r s'' ⟨s', hsem, hinv', hrely, hinv''⟩
  exact hk r s'' hinv'' (hstable r s' s'' (hact s r s' hinv hK hsem).2 hinv' hrely hinv'')

end Rules

/-! ## Runs -/

/-- The state, and what is left of every thread. -/
structure SharedThreads (A : Type) (R : A → Type) (E P α S : Type) where
  state : S
  threads : List (Prog A R E P α)

namespace SharedThreads

variable {ρ : Rules A R S} {may : SharedThreads A R E P α S → Prog A R E P α → Prop}
  {Q : Outcome E P α → S → Prop} {σ σ' : SharedThreads A R E P α S}

/-- **One step**: a thread is started, or one performs its next action. -/
inductive Step (ρ : Rules A R S) (may : SharedThreads A R E P α S → Prog A R E P α → Prop) :
    SharedThreads A R E P α S → SharedThreads A R E P α S → Prop where
  | start {σ : SharedThreads A R E P α S} {p : Prog A R E P α} (h : may σ p) :
      Step ρ may σ { σ with threads := σ.threads ++ [p] }
  | act {σ : SharedThreads A R E P α S} {n : Nat} {a : A} {k : R a → Prog A R E P α} {r : R a}
      {s' : S} (hn : σ.threads[n]? = some (.act a k)) (h : ρ.sem n a σ.state r s') :
      Step ρ may σ ⟨s', σ.threads.set n (k r)⟩

/-- A program that is fine on its own, whatever the others do. -/
def Fine (ρ : Rules A R S) (Q : Outcome E P α → S → Prop) (n : Nat) (s : S)
    (p : Prog A R E P α) : Prop :=
  ∀ s', ρ.rely n s s' → ρ.inv s' → p.wp (ρ.alone n) Q s'

/-- What every run keeps. -/
structure Kept (ρ : Rules A R S) (Q : Outcome E P α → S → Prop)
    (σ : SharedThreads A R E P α S) : Prop where
  inv : ρ.inv σ.state
  fine : ∀ n p, σ.threads[n]? = some p → Fine ρ Q n σ.state p

theorem Fine.moved {n : Nat} {s s' : S} {p : Prog A R E P α} (h : Fine ρ Q n s p)
    (hrely : ρ.rely n s s') : Fine ρ Q n s' p :=
  fun s'' hrely' hinv => h s'' (ρ.trans hrely hrely') hinv

/-- **A thread that has come to its end** has its postcondition. -/
theorem Kept.returned (h : Kept ρ Q σ) {a : α} (ha : .ret a ∈ σ.threads) :
    Q (.ok a) σ.state := by
  obtain ⟨n, hn⟩ := List.mem_iff_getElem?.mp ha
  exact h.fine n _ hn σ.state (ρ.refl n _) h.inv

/-- **Every step keeps the invariant**, if what may be started is fine. -/
theorem Step.kept (hmay : ∀ σ p, Kept ρ Q σ → may σ p → Fine ρ Q σ.threads.length σ.state p)
    (hstep : Step ρ may σ σ') (h : Kept ρ Q σ) : Kept ρ Q σ' := by
  cases hstep with
  | @start p' hp =>
    refine ⟨h.inv, fun n p hn => ?_⟩
    rcases Nat.lt_trichotomy n σ.threads.length with hlt | rfl | hgt
    · rw [List.getElem?_append_left hlt] at hn
      exact h.fine n p hn
    · rw [List.getElem?_concat_length] at hn
      cases hn
      exact hmay _ _ h hp
    · have hlen : (σ.threads ++ [p']).length ≤ n := by
        rw [List.length_append, List.length_singleton]
        exact hgt
      rw [List.getElem?_eq_none hlen] at hn
      cases hn
  | @act n a k r s' hn hsem =>
    have hact := h.fine n _ hn σ.state (ρ.refl n _) h.inv
    obtain ⟨hinv', hrely⟩ := hact.1 r s' hsem
    refine ⟨hinv', fun m p hm => ?_⟩
    by_cases hmn : m = n
    · subst hmn
      have hlt : m < σ.threads.length := (List.getElem?_eq_some_iff.mp hn).1
      rw [List.getElem?_set_self hlt] at hm
      cases hm
      exact fun s'' hrely' hinv'' => hact.2 r s'' ⟨s', hsem, hinv', hrely', hinv''⟩
    · rw [List.getElem?_set_ne (Ne.symm hmn)] at hm
      exact (h.fine m p hm).moved (hrely m hmn)

/-- The states that can be reached from `s` with no thread running. -/
def Reachable (ρ : Rules A R S) (may : SharedThreads A R E P α S → Prog A R E P α → Prop) (s : S)
    (σ : SharedThreads A R E P α S) : Prop :=
  Relation.ReflTransGen (Step ρ may) ⟨s, []⟩ σ

theorem Reachable.kept {s : S}
    (hmay : ∀ σ p, Kept ρ Q σ → may σ p → Fine ρ Q σ.threads.length σ.state p)
    (hinv : ρ.inv s) (h : Reachable ρ may s σ) : Kept ρ Q σ := by
  induction h with
  | refl => exact ⟨hinv, fun n p hn => by simp at hn⟩
  | tail _ hstep ih => exact hstep.kept hmay ih

end SharedThreads

end Lib
