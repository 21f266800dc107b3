/-
  # Threads that clean up after themselves

  An invariant of a shared state may be broken by one action of a thread and mended by a later
  action of the same thread, while other threads go on in between.  What is broken is a set of
  things that are OWED.  An action takes over DUTIES, the things it may break, and settles some,
  by what it does or by the answer it gets: then they are known to be in order.

  A program `Minds` its duties if each of them is settled after it was taken over, on every path
  through the rest of the program.  In a run of such programs everything that is owed is still to
  be settled by one of them (`Covered`), so nothing is owed when all have ended.
-/
import Virtiofsd.Lib.Compositional

namespace Lib

open List

variable {A : Type} {R : A → Type} {E P α β S T : Type}

/-- **Duties of the threads**: what an action takes over, and what it settles with its answer.
Only answers with `may` occur. -/
structure Duties (A : Type) (R : A → Type) (T : Type) where
  takes : A → Set T
  settles : (a : A) → R a → Set T
  may : (a : A) → R a → Prop

namespace Duties

variable {δ : Duties A R T} {t : T}

/-- The duty `t` is settled on every path through the program. -/
def WillSettle (δ : Duties A R T) (t : T) : Prog A R E P α → Prop
  | .act a k => ∀ r, δ.may a r → t ∈ δ.settles a r ∨ δ.WillSettle t (k r)
  | _ => False

/-- **Every duty that the program takes over is settled afterwards.** -/
def Minds (δ : Duties A R T) : Prog A R E P α → Prop
  | .act a k => ∀ r, δ.may a r →
      (∀ t ∈ δ.takes a, t ∈ δ.settles a r ∨ δ.WillSettle t (k r)) ∧ δ.Minds (k r)
  | _ => True

theorem WillSettle.bind {f : α → Prog A R E P β} : ∀ {p : Prog A R E P α},
    δ.WillSettle t p → δ.WillSettle t (p.bind f)
  | .act _ _, h => fun r hr => (h r hr).imp_right fun h => h.bind

theorem WillSettle.attempt : ∀ {p : Prog A R E P α},
    δ.WillSettle t p → δ.WillSettle t p.attempt
  | .act _ _, h => fun r hr => (h r hr).imp_right fun h => h.attempt

theorem Minds.bind {f : α → Prog A R E P β} (hf : ∀ a, δ.Minds (f a)) :
    ∀ {p : Prog A R E P α}, δ.Minds p → δ.Minds (p.bind f)
  | .ret a, _ => hf a
  | .err _, _ => trivial
  | .panic _, _ => trivial
  | .act _ _, h => fun r hr =>
    ⟨fun t ht => ((h r hr).1 t ht).imp_right fun h => h.bind, Minds.bind hf (h r hr).2⟩

theorem Minds.attempt : ∀ {p : Prog A R E P α}, δ.Minds p → δ.Minds p.attempt
  | .ret _, _ => trivial
  | .err _, _ => trivial
  | .panic _, _ => trivial
  | .act _ _, h => fun r hr =>
    ⟨fun t ht => ((h r hr).1 t ht).imp_right fun h => h.attempt, Minds.attempt (h r hr).2⟩

theorem Minds.compositional : Compositional (E := E) (P := P) fun p => δ.Minds p where
  ret _ := trivial
  err _ := trivial
  bind hp hk := Minds.bind hk hp
  attempt hp := hp.attempt

/-- An action that takes over nothing. -/
theorem Minds.perform {a : A} (h : δ.takes a = ∅) :
    δ.Minds (Prog.perform a : Prog A R E P (R a)) := by
  refine fun r _ => ⟨fun t ht => ?_, trivial⟩
  rw [h] at ht
  exact ht.elim

/-- A program whose actions take over nothing. -/
theorem Minds.of_keeps {allowed : A → Prop} {ok : (a : A) → R a → Prop} {Q : α → Prop}
    (hallowed : ∀ a, allowed a → δ.takes a = ∅) (hok : ∀ a r, δ.may a r → ok a r) :
    ∀ {p : Prog A R E P α}, Keeps allowed ok p Q → δ.Minds p
  | .ret _, _ => trivial
  | .err _, _ => trivial
  | .panic _, _ => trivial
  | .act a _, h => fun r hr => by
    refine ⟨fun t ht => ?_, Minds.of_keeps hallowed hok (h.2 r () (hok a r hr))⟩
    rw [hallowed a h.1] at ht
    exact ht.elim

/-! ## Runs -/

/-- **All that is owed is still to be settled by some thread**, and all threads mind their
duties. -/
structure Covered (δ : Duties A R T) (owed : T → Prop) (threads : List (Prog A R E P α)) :
    Prop where
  settled : ∀ t, owed t → ∃ p ∈ threads, δ.WillSettle t p
  minds : ∀ p ∈ threads, δ.Minds p

variable {owed owed' : T → Prop} {l₁ l₂ : List (Prog A R E P α)}

theorem Covered.start {p : Prog A R E P α} (h : δ.Covered owed l₁) (hp : δ.Minds p) :
    δ.Covered owed (p :: l₁) := by
  refine ⟨fun t ht => ?_, forall_mem_cons.mpr ⟨hp, h.minds⟩⟩
  obtain ⟨q, hq, hsettle⟩ := h.settled t ht
  exact ⟨q, mem_cons_of_mem _ hq, hsettle⟩

/-- **One action**: what is owed after it was owed before or is taken over by it, and is not
what it has settled. -/
theorem Covered.act {a : A} {k : R a → Prog A R E P α} {r : R a}
    (h : δ.Covered owed (l₁ ++ .act a k :: l₂)) (hr : δ.may a r)
    (hstep : ∀ t, owed' t → (owed t ∨ t ∈ δ.takes a) ∧ t ∉ δ.settles a r) :
    δ.Covered owed' (l₁ ++ k r :: l₂) := by
  have hact := h.minds (.act a k) (mem_append_right _ mem_cons_self) r hr
  have hk : k r ∈ l₁ ++ k r :: l₂ := mem_append_right _ mem_cons_self
  refine ⟨fun t ht => ?_, forall_mem_replace h.minds hact.2⟩
  obtain ⟨hbefore | htakes, hnot⟩ := hstep t ht
  · obtain ⟨q, hq, hsettle⟩ := h.settled t hbefore
    rcases mem_append.mp hq with hq | hq
    · exact ⟨q, mem_append_left _ hq, hsettle⟩
    · rcases mem_cons.mp hq with rfl | hq
      · exact ⟨k r, hk, (hsettle r hr).resolve_left hnot⟩
      · exact ⟨q, mem_append_right _ (mem_cons_of_mem _ hq), hsettle⟩
  · exact ⟨k r, hk, (hact.1 t htakes).resolve_left hnot⟩

/-- A thread that has ended has no duty left. -/
theorem Covered.finish {p : Prog A R E P α} (h : δ.Covered owed (l₁ ++ p :: l₂))
    (hp : ∀ a k, p ≠ .act a k) : δ.Covered owed (l₁ ++ l₂) := by
  refine ⟨fun t ht => ?_, forall_mem_remove h.minds⟩
  obtain ⟨q, hq, hsettle⟩ := h.settled t ht
  rcases mem_append.mp hq with hq | hq
  · exact ⟨q, mem_append_left _ hq, hsettle⟩
  · rcases mem_cons.mp hq with rfl | hq
    · cases q with
      | act a k => exact absurd rfl (hp a k)
      | _ => exact hsettle.elim
    · exact ⟨q, mem_append_right _ hq, hsettle⟩

theorem Covered.mono (h : δ.Covered owed l₁) (hle : ∀ t, owed' t → owed t) :
    δ.Covered owed' l₁ :=
  ⟨fun t ht => h.settled t (hle t ht), h.minds⟩

/-- **When all threads have ended, nothing is owed.** -/
theorem Covered.nothing (h : δ.Covered owed ([] : List (Prog A R E P α))) (t : T) : ¬ owed t := by
  intro ht
  obtain ⟨p, hp, -⟩ := h.settled t ht
  exact not_mem_nil hp

end Duties

end Lib
