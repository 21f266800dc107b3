/-
  # What a program has told others when it returns

  Some actions EMIT items, in an order that matters.  `Emits p Q` says of a program what it
  has emitted if it returns: `Q a items` for the value `a` it returns with.  Parts that emit
  nothing are `Silent`, which is compositional.  The answers to the actions may be any that
  `ok` allows.
-/
import Virtiofsd.Lib.Compositional

namespace Lib

variable {A : Type} {R : A → Type} {E P α β T : Type}

/-- The items so far, as ghost state. -/
def emitting (emit : A → List T) (ok : (a : A) → R a → Prop) : Spec A R (List T) where
  pre _ _ := True
  post a items r items' := ok a r ∧ items' = items ++ emit a

/-- **The program emits nothing**, however it ends. -/
def Silent (emit : A → List T) (ok : (a : A) → R a → Prop) (p : Prog A R E P α) : Prop :=
  Moves (emitting emit ok) Eq p

/-- **What the program has emitted when it returns.** -/
def Emits (emit : A → List T) (ok : (a : A) → R a → Prop) (p : Prog A R E P α)
    (Q : α → List T → Prop) : Prop :=
  ∀ items, p.wp (emitting emit ok)
    (fun o items' => ∀ a, o = .ok a → ∃ more, items' = items ++ more ∧ Q a more) items

variable {emit : A → List T} {ok : (a : A) → R a → Prop} {p : Prog A R E P α}
  {k : α → Prog A R E P β} {Q : α → List T → Prop} {Q₁ : α → β → List T → Prop}
  {Q₂ : β → List T → Prop}

theorem Silent.compositional : Compositional (E := E) (P := P) fun p => Silent emit ok p :=
  Moves.compositional (fun _ => rfl) fun h h' => h.trans h'

theorem Silent.panic (q : P) : Silent emit ok (.panic q : Prog A R E P α) := fun _ => rfl

theorem Silent.act {a : A} {k : R a → Prog A R E P α} (ha : emit a = [])
    (hk : ∀ r, ok a r → Silent emit ok (k r)) : Silent emit ok (.act a k) := by
  intro items
  refine ⟨trivial, fun r items' h => ?_⟩
  obtain ⟨hr, rfl⟩ := h
  rw [ha, List.append_nil]
  exact hk r hr items

theorem Silent.perform {a : A} (ha : emit a = []) :
    Silent emit ok (Prog.perform a : Prog A R E P (R a)) :=
  .act ha fun r _ => Silent.compositional.ret r

namespace Emits

theorem ret {a : α} (h : Q a []) : Emits emit ok (.ret a : Prog A R E P α) Q := by
  intro items a' ha'
  cases ha'
  exact ⟨[], (List.append_nil _).symm, h⟩

theorem err {e : E} : Emits emit ok (.err e : Prog A R E P α) Q := fun _ _ h => nomatch h

theorem perform (a : A) :
    Emits emit ok (Prog.perform a : Prog A R E P (R a)) fun _ items => items = emit a := by
  intro items
  refine ⟨trivial, fun r items' h a' _ => ?_⟩
  exact ⟨emit a, h.2, rfl⟩

theorem act {a : A} {k : R a → Prog A R E P α} (ha : emit a = [])
    (hk : ∀ r, ok a r → Emits emit ok (k r) Q) : Emits emit ok (.act a k) Q := by
  intro items
  refine ⟨trivial, fun r items' h => ?_⟩
  obtain ⟨hr, rfl⟩ := h
  rw [ha, List.append_nil]
  exact hk r hr items

theorem of_silent (hp : Silent emit ok p) : Emits emit ok p fun _ items => items = [] := by
  intro items
  refine Prog.wp_mono (fun o items' h a _ => ?_) p (hp items)
  exact ⟨[], by rw [List.append_nil, h], rfl⟩

theorem mono {Q' : α → List T → Prop} (hp : Emits emit ok p Q)
    (h : ∀ a items, Q a items → Q' a items) : Emits emit ok p Q' := by
  intro items
  refine Prog.wp_mono (fun o items' ho a ha => ?_) p (hp items)
  obtain ⟨more, hmore, hQ⟩ := ho a ha
  exact ⟨more, hmore, h a more hQ⟩

/-- One after the other. -/
theorem bind (hp : Emits emit ok p Q) (hk : ∀ a, Emits emit ok (k a) (Q₁ a)) :
    Emits emit ok (p.bind k) fun b items =>
      ∃ a first rest, Q a first ∧ Q₁ a b rest ∧ items = first ++ rest := by
  intro items
  refine Prog.wp_bind_of (hp items) (fun a items' h => ?_) (fun _ _ _ _ h => nomatch h)
    (fun _ _ _ _ h => nomatch h)
  obtain ⟨first, rfl, hfirst⟩ := h a rfl
  refine Prog.wp_mono (fun o items' ho b hb => ?_) (k a) (hk a _)
  obtain ⟨rest, rfl, hrest⟩ := ho b hb
  exact ⟨first ++ rest, List.append_assoc _ _ _, a, first, rest, hfirst, hrest, rfl⟩

/-- Nothing first. -/
theorem after (hp : Silent emit ok p) (hk : ∀ a, Emits emit ok (k a) Q₂) :
    Emits emit ok (p.bind k) Q₂ := by
  refine ((of_silent hp).bind hk).mono fun b items h => ?_
  obtain ⟨a, first, rest, rfl, hrest, rfl⟩ := h
  exact hrest

/-- Nothing afterwards. -/
theorem before (hp : Emits emit ok p Q) (hk : ∀ a, Emits emit ok (k a)
    fun b items => items = [] ∧ ∀ more, Q a more → Q₂ b more) :
    Emits emit ok (p.bind k) Q₂ := by
  refine (hp.bind hk).mono fun b items h => ?_
  obtain ⟨a, first, rest, hfirst, ⟨rfl, hb⟩, rfl⟩ := h
  rw [List.append_nil]
  exact hb first hfirst

end Emits

end Lib
