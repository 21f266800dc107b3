/-
  # Threads that share a lock

  A state of type `G` is meant to be guarded by a lock.  Threads acquire and release the lock,
  and act on the state, with the lock or without it; nothing but the programs makes them
  take the lock first.

  `locked free S` is what ONE thread may assume: with the lock it sees the state go from action
  to action as `S` says; without it it knows nothing, and keeps to the actions that are `free`.
  This is sound in every run in which no free action moves the state under the thread that has
  the lock (`Reached.kept`).
-/
import Virtiofsd.Lib.Log

namespace Lib

/-- The lock, and the actions on the state. -/
inductive LockAct (A : Type) where
  | acquire
  | release
  | inner (a : A)

def LockAct.Ans {A : Type} (R : A → Type) : LockAct A → Type
  | acquire => Unit
  | release => Unit
  | inner a => R a

variable {A : Type} {R : A → Type} {E P α ι G : Type}

/-- **What one thread may assume.**  The ghost state is the guarded one for the thread with the
lock, and nothing for the others. -/
def locked (free : A → Prop) (S : Spec A R G) : Spec (LockAct A) (LockAct.Ans R) (Option G) where
  pre
    | .acquire, g => g = none
    | .release, g => g ≠ none
    | .inner a, some g => S.pre a g
    | .inner a, none => free a
  post
    | .acquire, _, _, g' => g' ≠ none
    | .release, _, _, g' => g' = none
    | .inner a, some g, r, g' => ∃ s, g' = some s ∧ S.post a g r s
    | .inner _, none, _, g' => g' = none

/-! ## 1. Programs with a lock -/

namespace Prog

/-- `p` with the lock held.  After a panic the lock stays taken for good: it is poisoned. -/
def withLock (p : Prog A R E P α) : Prog (LockAct A) (LockAct.Ans R) E P α :=
  .act .acquire fun _ => (p.mapAct .inner (fun _ r => r) id).attempt.bind fun r =>
    .act .release fun _ => .ofExcept r

variable {free : A → Prop} {S : Spec A R G}

variable {Q : Outcome E P α → G → Prop}

/-- With the lock, a program does what it does alone. -/
theorem wp_mapAct_inner (p : Prog A R E P α) :
    ∀ {g : G}, p.wp S Q g → (p.mapAct .inner (fun _ r => r) id).wp (locked free S)
      (fun o g' => ∃ s, g' = some s ∧ Q o s) (some g) := by
  induction p with
  | ret | err | panic => exact fun h => ⟨_, rfl, h⟩
  | act a k ih =>
    rintro g ⟨hpre, h⟩
    refine ⟨hpre, ?_⟩
    rintro r g' ⟨s, rfl, hpost⟩
    exact ih r (h r s hpost)

/-- A program of which nothing is asked. -/
theorem wp_of_forall (hpre : ∀ a g, S.pre a g) (hQ : ∀ o g, Q o g) (p : Prog A R E P α) :
    ∀ g, p.wp S Q g := by
  induction p with
  | ret | err | panic => exact hQ _
  | act a k ih => exact fun g => ⟨hpre a g, fun r g' _ => ih r g'⟩

/-- What must hold where a critical section ends. -/
def lockPost (Q : Outcome E P α → Option G → Prop) : Outcome E P α → G → Prop
  | .ok a, _ => Q (.ok a) none
  | .err e, _ => Q (.err e) none
  | .panic q, s => Q (.panic q) (some s)

/-- **The rule for a critical section**: the state may be anything when it starts. -/
theorem wp_withLock {p : Prog A R E P α} {Q : Outcome E P α → Option G → Prop}
    (hp : ∀ g, p.wp S (lockPost Q) g) : p.withLock.wp (locked free S) Q none := by
  refine ⟨rfl, fun _ g' hg' => ?_⟩
  obtain ⟨g, rfl⟩ := Option.ne_none_iff_exists'.mp hg'
  refine wp_bind.mpr (wp_attempt.mpr (wp_mono ?_ _ (wp_mapAct_inner p (hp g))))
  rintro (a | e | q) g' ⟨s, rfl, hQ⟩
  · refine ⟨Option.some_ne_none s, ?_⟩
    rintro _ g' rfl
    exact hQ
  · refine ⟨Option.some_ne_none s, ?_⟩
    rintro _ g' rfl
    exact hQ
  · exact hQ

end Prog

/-! ## 2. Runs of several threads -/

/-- **The threads**, with what each was started for, the guarded state, and who has the lock. -/
structure LockThreads (A : Type) (R : A → Type) (E P α ι G : Type) where
  state : G
  holder : Option Nat
  threads : List (ι × Prog (LockAct A) (LockAct.Ans R) E P α)

/-- **The states that the threads can reach.**  Threads start at any time; a thread waits for
the lock; the actions are answered as `S` says.  `may` restricts which thread may act on the
state, and when. -/
inductive Reached (S : Spec A R G) (prog : ι → Prog (LockAct A) (LockAct.Ans R) E P α)
    (may : Nat → A → LockThreads A R E P α ι G → Prop) : LockThreads A R E P α ι G → Prop where
  | init (g : G) : Reached S prog may ⟨g, none, []⟩
  | start {σ} (i : ι) : Reached S prog may σ →
      Reached S prog may { σ with threads := σ.threads ++ [(i, prog i)] }
  | acquire {σ n i k} : Reached S prog may σ → σ.threads[n]? = some (i, .act .acquire k) →
      σ.holder = none →
      Reached S prog may { σ with holder := some n, threads := σ.threads.set n (i, k ()) }
  | release {σ n i k} : Reached S prog may σ → σ.threads[n]? = some (i, .act .release k) →
      Reached S prog may { σ with holder := none, threads := σ.threads.set n (i, k ()) }
  | inner {σ n i a k r g'} : Reached S prog may σ →
      σ.threads[n]? = some (i, .act (.inner a) k) → may n a σ → S.post a σ.state r g' →
      Reached S prog may { σ with state := g', threads := σ.threads.set n (i, k r) }

namespace Reached

variable {free : A → Prop} {S : Spec A R G} {prog : ι → Prog (LockAct A) (LockAct.Ans R) E P α}
  {may : Nat → A → LockThreads A R E P α ι G → Prop} {σ : LockThreads A R E P α ι G}
  {Q : ι → Outcome E P α → Option G → Prop}

/-- What a thread sees of the guarded state. -/
def view (σ : LockThreads A R E P α ι G) (n : Nat) : Option G :=
  if σ.holder = some n then some σ.state else none

/-- What is kept: the thread with the lock exists, and the rest of each program does what is
left to do from what its thread sees. -/
structure Kept (free : A → Prop) (S : Spec A R G) (Q : ι → Outcome E P α → Option G → Prop)
    (σ : LockThreads A R E P α ι G) : Prop where
  holder : ∀ n, σ.holder = some n → n < σ.threads.length
  threads : ∀ (n : Nat) (i : ι) (p : Prog (LockAct A) (LockAct.Ans R) E P α),
    σ.threads[n]? = some (i, p) → p.wp (locked free S) (Q i) (view σ n)

/-- One thread takes a step, and the others see what they saw. -/
theorem Kept.step {n : Nat} {i : ι} {p p' : Prog (LockAct A) (LockAct.Ans R) E P α}
    {holder : Option Nat} {state : G} (h : Kept free S Q σ) (hn : σ.threads[n]? = some (i, p))
    (hholder : holder = some n ∨ holder = none ∨ holder = σ.holder)
    (hstep : p'.wp (locked free S) (Q i) (view ⟨state, holder, σ.threads.set n (i, p')⟩ n))
    (hothers : ∀ m, m ≠ n → view ⟨state, holder, σ.threads.set n (i, p')⟩ m = view σ m) :
    Kept free S Q ⟨state, holder, σ.threads.set n (i, p')⟩ := by
  have hlt := (List.getElem?_eq_some_iff.mp hn).1
  refine ⟨fun m hm => ?_, fun m j q hq => ?_⟩
  · rw [List.length_set]
    rcases hholder with rfl | rfl | rfl
    · cases hm
      exact hlt
    · cases hm
    · exact h.holder m hm
  · by_cases hm : m = n
    · subst hm
      rw [List.getElem?_set_self hlt] at hq
      cases hq
      exact hstep
    · rw [List.getElem?_set_ne (Ne.symm hm)] at hq
      rw [hothers m hm]
      exact h.threads m j q hq

/-- **The lock does its work** if nobody moves the state under the thread that has it: what was
proved of one thread is true of each. -/
theorem kept (h : Reached S prog may σ) (hprog : ∀ i, (prog i).wp (locked free S) (Q i) none)
    (hmay : ∀ {σ : LockThreads A R E P α ι G} {n : Nat} {a : A} {r : R a} {g' : G}, may n a σ →
      free a → S.post a σ.state r g' → σ.holder = none ∨ g' = σ.state) :
    Kept free S Q σ := by
  induction h with
  | init g => exact ⟨fun n hn => (nomatch hn), fun n i p hp => (nomatch hp)⟩
  | @start σ i _ ih =>
    refine ⟨fun n hn => ?_, fun n j p hp => ?_⟩
    · have hlt := ih.holder n hn
      rw [List.length_append]
      omega
    · rcases Nat.lt_or_ge n σ.threads.length with hlt | hge
      · rw [List.getElem?_append_left hlt] at hp
        exact ih.threads n j p hp
      · have hview : view { σ with threads := σ.threads ++ [(i, prog i)] } n = none := by
          refine if_neg fun hn => ?_
          have hlt := ih.holder n hn
          omega
        rw [List.getElem?_append_right hge] at hp
        obtain ⟨hn, heq⟩ := List.getElem?_eq_some_iff.mp hp
        rw [List.getElem_singleton] at heq
        cases heq
        rw [hview]
        exact hprog i
  | @acquire σ n i k _ hn hfree ih =>
    refine ih.step hn (.inl rfl) ((ih.threads n i _ hn).2 () _ ?_) fun m hm => ?_
    · simp [locked, view]
    · simp [view, hfree, Ne.symm hm]
  | @release σ n i k _ hn ih =>
    -- The program releases only a lock that it has.
    have hwp := ih.threads n i _ hn
    have hhas : σ.holder = some n := by
      by_contra hne
      exact hwp.1 (if_neg hne)
    refine ih.step hn (.inr (.inl rfl)) (hwp.2 () _ ?_) fun m hm => ?_
    · simp [locked, view]
    · simp [view, hhas, Ne.symm hm]
  | @inner σ n i a k r g' _ hn hmayn hpost ih =>
    have hwp := ih.threads n i _ hn
    by_cases hhas : σ.holder = some n
    · have hview : view σ n = some σ.state := if_pos hhas
      rw [hview] at hwp
      refine ih.step hn (.inr (.inr rfl)) (hwp.2 r _ ⟨g', if_pos hhas, hpost⟩) fun m hm => ?_
      simp [view, hhas, Ne.symm hm]
    · have hview : view σ n = none := if_neg hhas
      rw [hview] at hwp
      refine ih.step hn (.inr (.inr rfl)) (hwp.2 r _ (if_neg hhas)) fun m hm => ?_
      rcases hmay hmayn hwp.1 hpost with hfree | rfl
      · simp [view, hfree]
      · rfl

end Reached

/-! ## 3. Schedules -/

namespace LockThreads

variable (may : Nat → A → LockThreads A R E P α ι G → Prop) [∀ n a σ, Decidable (may n a σ)]
  (h : (a : A) → G → R a × G)

/-- One step of a thread, with the answers of a handler; nothing if the thread cannot step. -/
def advance (σ : LockThreads A R E P α ι G) (n : Nat) : LockThreads A R E P α ι G :=
  match σ.threads[n]? with
  | some (i, .act .acquire k) =>
    if σ.holder = none then { σ with holder := some n, threads := σ.threads.set n (i, k ()) } else σ
  | some (i, .act .release k) => { σ with holder := none, threads := σ.threads.set n (i, k ()) }
  | some (i, .act (.inner a) k) =>
    if may n a σ then
      { σ with state := (h a σ.state).2, threads := σ.threads.set n (i, k (h a σ.state).1) }
    else σ
  | _ => σ

/-- The threads started for these requests, after a schedule. -/
def schedule (prog : ι → Prog (LockAct A) (LockAct.Ans R) E P α) (g : G) (requests : List ι)
    (steps : List Nat) : LockThreads A R E P α ι G :=
  steps.foldl (advance may h) ⟨g, none, requests.map fun i => (i, prog i)⟩

variable {may h} {S : Spec A R G} {prog : ι → Prog (LockAct A) (LockAct.Ans R) E P α}
  (hh : ∀ a g, S.post a g (h a g).1 (h a g).2)

include hh

theorem reached_advance {σ : LockThreads A R E P α ι G} (hσ : Reached S prog may σ) (n : Nat) :
    Reached S prog may (σ.advance may h n) := by
  unfold advance
  split
  · rename_i hn
    split
    · rename_i hfree
      exact .acquire hσ hn hfree
    · exact hσ
  · rename_i hn
    exact .release hσ hn
  · rename_i hn
    split
    · rename_i hmay
      exact .inner hσ hn hmay (hh _ _)
    · exact hσ
  · exact hσ

/-- **A schedule is a run.** -/
theorem reached_schedule (g : G) (requests : List ι) (steps : List Nat) :
    Reached S prog may (schedule may h prog g requests steps) := by
  have hstart : ∀ (l : List ι) (σ : LockThreads A R E P α ι G), Reached S prog may σ →
      Reached S prog may { σ with threads := σ.threads ++ l.map fun i => (i, prog i) } := by
    intro l
    induction l with
    | nil =>
      intro σ hσ
      simpa using hσ
    | cons i l ih =>
      intro σ hσ
      simpa using ih _ (.start i hσ)
  have hsteps : ∀ (l : List Nat) (σ : LockThreads A R E P α ι G), Reached S prog may σ →
      Reached S prog may (l.foldl (advance may h) σ) := by
    intro l
    induction l with
    | nil => exact fun σ hσ => hσ
    | cons n l ih => exact fun σ hσ => ih _ (reached_advance hh hσ n)
  exact hsteps steps _ (hstart requests _ (.init g))

end LockThreads

end Lib
