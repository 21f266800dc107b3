/-
  # Loops that defer

  A list of items is worked through by a program that, for each item, either processes it or
  asks to be tried again later, because something it depends on is not there yet.  The list
  is gone through in passes; an item that was processed is taken out by moving the last one
  into its place.  A pass without progress ends the loop with an error.

  `Deferral.loop_run` is the rule for such loops.  What is asked of one attempt:

  * an attempt that defers its item changes nothing;
  * an attempt that processes its item keeps an invariant of the items that are left and the
    state.

  The loop then ends with no items left and the invariant, or with items left that are ALL
  deferred in the state it ends in, or as one of the attempts has failed.
-/
import Virtiofsd.Lib.Program

namespace Lib

open List

/-! ## 1. `swap_remove` -/

/-- `Vec::swap_remove`: the last element takes the place of the one that is removed. -/
def swapRemove {β : Type} (l : List β) (i : Nat) : List β :=
  match l.getLast? with
  | some x => (l.set i x).dropLast
  | none => []

theorem perm_swapRemove {β : Type} {l : List β} {i : Nat} {x : β} (h : l[i]? = some x) :
    l.Perm (x :: swapRemove l i) := by
  obtain ⟨hi, rfl⟩ := List.getElem?_eq_some_iff.mp h
  rcases eq_nil_or_concat l with rfl | ⟨l', y, rfl⟩
  · simp at hi
  · simp only [concat_eq_append] at hi ⊢
    have hremove : swapRemove (l' ++ [y]) i = ((l' ++ [y]).set i y).dropLast := by
      simp [swapRemove]
    rw [hremove]
    by_cases hlt : i < l'.length
    · -- an element before the last one
      rw [set_append_left _ _ hlt, dropLast_concat, getElem_append_left hlt]
      refine (perm_append_comm).trans ?_
      refine Perm.trans ?_ (Perm.cons _ (set_perm_cons_eraseIdx hlt y).symm)
      refine Perm.trans ?_ (Perm.swap _ _ _)
      exact Perm.cons _ (getElem_cons_eraseIdx_perm hlt).symm
    · obtain rfl : i = l'.length := by
        have : i < l'.length + 1 := by simpa using hi
        omega
      simp [set_append_right]

theorem length_swapRemove {β : Type} {l : List β} {i : Nat} {x : β} (h : l[i]? = some x) :
    (swapRemove l i).length + 1 = l.length := by
  simpa using (perm_swapRemove h).length_eq.symm

namespace Deferral

variable {A : Type} {R : A → Type} {E P β S : Type}

/-! ## 2. The loop -/

/-- One pass: `k` items are left to try, from the `i`th on.  Returns whether any item was
processed, and the items that were not. -/
def pass (attempt : β → Prog A R E P Bool) :
    Nat → Nat → Bool → List β → Prog A R E P (Bool × List β)
  | 0, _, any, l => .ret (any, l)
  | k + 1, i, any, l =>
    match l[i]? with
    | none => .ret (any, l)
    | some x => (attempt x).bind fun processed =>
      if processed then pass attempt k i true (swapRemove l i)
      else pass attempt k (i + 1) any l

/-- Passes until no item is left.  Every pass but the last processes an item, so the fuel
only has to be the number of items. -/
def loop (attempt : β → Prog A R E P Bool) (unresolved : E) : Nat → List β → Prog A R E P Unit
  | _, [] => .ret ()
  | 0, _ :: _ => .err unresolved
  | fuel + 1, x :: l => (pass attempt (x :: l).length 0 false (x :: l)).bind fun r =>
    if r.1 then loop attempt unresolved fuel r.2 else .err unresolved

/-- **The states of a loop**: the items left and the state, before and after each attempt,
whichever item is tried next. -/
inductive Visits (h : (a : A) → S → R a × S) (attempt : β → Prog A R E P Bool) (l : List β)
    (s : S) : List β → S → Prop where
  | start : Visits h attempt l s l s
  | processed {l' : List β} {s' s'' : S} {i : Nat} {x : β} (hv : Visits h attempt l s l' s')
      (hx : l'[i]? = some x) (hr : (attempt x).run h s' = (.ok true, s'')) :
      Visits h attempt l s (swapRemove l' i) s''
  | deferred {l' : List β} {s' s'' : S} {i : Nat} {x : β} (hv : Visits h attempt l s l' s')
      (hx : l'[i]? = some x) (hr : (attempt x).run h s' = (.ok false, s'')) :
      Visits h attempt l s l' s''

/-! ## 3. The rule -/

/-- What is asked of an attempt. -/
structure Rule (h : (a : A) → S → R a × S) (attempt : β → Prog A R E P Bool)
    (Inv : List β → S → Prop) : Prop where
  /-- An attempt that defers changes nothing. -/
  defer : ∀ {l : List β} {s s' : S} {x : β}, Inv l s → x ∈ l →
    (attempt x).run h s = (.ok false, s') → s' = s
  /-- An attempt that processes its item keeps the invariant of the others. -/
  step : ∀ {l rest : List β} {s s' : S} {x : β}, Inv l s → l.Perm (x :: rest) →
    (attempt x).run h s = (.ok true, s') → Inv rest s'

/-- An attempt has failed, and the loop ends as it did. -/
def Failed (h : (a : A) → S → R a × S) (attempt : β → Prog A R E P Bool)
    (Inv : List β → S → Prop) (o : Outcome E P Unit) (s' : S) : Prop :=
  ∃ (l : List β) (s : S) (x : β), Inv l s ∧ x ∈ l ∧
    ((∃ e, o = .err e ∧ (attempt x).run h s = (.err e, s')) ∨
      ∃ q, o = .panic q ∧ (attempt x).run h s = (.panic q, s'))

/-- How a loop ends. -/
inductive Ended (h : (a : A) → S → R a × S) (attempt : β → Prog A R E P Bool) (unresolved : E)
    (Inv : List β → S → Prop) : Outcome E P Unit → S → Prop where
  | done {s' : S} (hinv : Inv [] s') : Ended h attempt unresolved Inv (.ok ()) s'
  | unresolved {l : List β} {s' : S} (hinv : Inv l s') (hne : l ≠ [])
      (hall : ∀ x ∈ l, (attempt x).run h s' = (.ok false, s')) :
      Ended h attempt unresolved Inv (.err unresolved) s'
  | failed {o : Outcome E P Unit} {s' : S} (hf : Failed h attempt Inv o s') :
      Ended h attempt unresolved Inv o s'

variable {h : (a : A) → S → R a × S} {attempt : β → Prog A R E P Bool}
  {Inv : List β → S → Prop} {l : List β} {s : S}

theorem Visits.inv (hrule : Rule h attempt Inv) (hinv : Inv l s) {l' : List β} {s' : S}
    (hv : Visits h attempt l s l' s') : Inv l' s' := by
  induction hv with
  | start => exact hinv
  | processed _ hx hr ih => exact hrule.step ih (perm_swapRemove hx) hr
  | deferred _ hx hr ih =>
    rw [hrule.defer ih (List.mem_of_getElem? hx) hr]
    exact ih

/-- How a pass ends: with progress, or with all items from the `i`th on deferred and nothing
changed, or as an attempt has failed. -/
inductive PassEnded (h : (a : A) → S → R a × S) (attempt : β → Prog A R E P Bool)
    (Inv : List β → S → Prop) (any : Bool) (i : Nat) (l : List β) (s : S) :
    Outcome E P (Bool × List β) × S → Prop where
  | progress {l' : List β} {s' : S} (hinv : Inv l' s') (hlen : l'.length < l.length) :
      PassEnded h attempt Inv any i l s (.ok (true, l'), s')
  | stuck (hall : ∀ j x, i ≤ j → l[j]? = some x → (attempt x).run h s = (.ok false, s)) :
      PassEnded h attempt Inv any i l s (.ok (any, l), s)
  | err {e : E} {s' : S} (hf : Failed h attempt Inv (.err e) s') :
      PassEnded h attempt Inv any i l s (.err e, s')
  | panic {q : P} {s' : S} (hf : Failed h attempt Inv (.panic q) s') :
      PassEnded h attempt Inv any i l s (.panic q, s')

theorem pass_run (hrule : Rule h attempt Inv) : ∀ (k i : Nat) (any : Bool) (l : List β) (s : S),
    l.length ≤ i + k → Inv l s →
      PassEnded h attempt Inv any i l s ((pass attempt k i any l).run h s)
  | 0, i, any, l, s, hk, hinv => by
    refine .stuck fun j x hj hx => ?_
    have := (List.getElem?_eq_some_iff.mp hx).1
    omega
  | k + 1, i, any, l, s, hk, hinv => by
    unfold pass
    cases hx : l[i]? with
    | none =>
      refine .stuck fun j x hj hxj => ?_
      have hlt := (List.getElem?_eq_some_iff.mp hxj).1
      have := List.getElem?_eq_none_iff.mp hx
      omega
    | some x =>
      have hmem := List.mem_of_getElem? hx
      simp only [Prog.run_bind]
      rcases hr : (attempt x).run h s with ⟨processed | e | q, s'⟩
      · cases processed with
        | true =>
          have hinv' := hrule.step hinv (perm_swapRemove hx) hr
          have hlen := length_swapRemove hx
          simp only [↓reduceIte]
          have hrest := pass_run hrule k i true (swapRemove l i) s' (by omega) hinv'
          generalize (pass attempt k i true (swapRemove l i)).run h s' = res at hrest
          cases hrest with
          | progress hinv'' hlt => exact .progress hinv'' (by omega)
          | stuck _ => exact .progress hinv' (by omega)
          | err hf => exact .err hf
          | panic hf => exact .panic hf
        | false =>
          obtain rfl := hrule.defer hinv hmem hr
          simp only [Bool.false_eq_true, ↓reduceIte]
          have hrest := pass_run hrule k (i + 1) any l s' (by omega) hinv
          generalize (pass attempt k (i + 1) any l).run h s' = res at hrest
          cases hrest with
          | progress hinv'' hlt => exact .progress hinv'' hlt
          | stuck hall =>
            refine .stuck fun j y hj hy => ?_
            rcases Nat.eq_or_lt_of_le hj with rfl | hj
            · rw [hx] at hy
              cases hy
              exact hr
            · exact hall j y hj hy
          | err hf => exact .err hf
          | panic hf => exact .panic hf
      · exact .err ⟨l, s, x, hinv, hmem, .inl ⟨e, rfl, hr⟩⟩
      · exact .panic ⟨l, s, x, hinv, hmem, .inr ⟨q, rfl, hr⟩⟩

/-- **The rule for loops that defer.** -/
theorem loop_run (unresolved : E) (hrule : Rule h attempt Inv) :
    ∀ (fuel : Nat) (l : List β) (s : S), l.length ≤ fuel → Inv l s →
      Ended h attempt unresolved Inv ((loop attempt unresolved fuel l).run h s).1
        ((loop attempt unresolved fuel l).run h s).2
  | fuel, [], s, _, hinv => by
    unfold loop
    exact .done hinv
  | 0, x :: l, s, hlen, _ => by simp at hlen
  | fuel + 1, x :: l, s, hlen, hinv => by
    have hpass := pass_run hrule (x :: l).length 0 false (x :: l) s (by omega) hinv
    unfold loop
    simp only [Prog.run_bind]
    generalize (pass attempt (x :: l).length 0 false (x :: l)).run h s = res at hpass
    cases hpass with
    | progress hinv' hlt =>
      refine loop_run unresolved hrule fuel _ _ ?_ hinv'
      exact Nat.le_of_lt_succ (Nat.lt_of_lt_of_le hlt hlen)
    | stuck hall =>
      refine .unresolved hinv (by simp) fun y hy => ?_
      obtain ⟨j, hj⟩ := List.getElem?_of_mem hy
      exact hall j y (Nat.zero_le j) hj
    | err hf | panic hf => exact .failed hf

/-! ## 4. What a loop that ends has done -/

/-- An attempt at the item has processed it. -/
def Processed (h : (a : A) → S → R a × S) (attempt : β → Prog A R E P Bool) (x : β) : Prop :=
  ∃ s s', (attempt x).run h s = (.ok true, s')

theorem pass_processed : ∀ (k i : Nat) (any : Bool) (l : List β) {s s' : S} {r : Bool × List β},
    (pass attempt k i any l).run h s = (.ok r, s') → ∀ x ∈ l, x ∈ r.2 ∨ Processed h attempt x
  | 0, i, any, l, s, s', r, hr, x, hx => by
    unfold pass at hr
    cases hr
    exact .inl hx
  | k + 1, i, any, l, s, s', r, hr, x, hx => by
    unfold pass at hr
    cases hy : l[i]? with
    | none =>
      rw [hy] at hr
      cases hr
      exact .inl hx
    | some y =>
      rw [hy] at hr
      obtain ⟨processed, s₁, hattempt, hrest⟩ := Prog.of_run_bind _ hr
      cases processed with
      | true =>
        rcases mem_cons.mp ((perm_swapRemove hy).mem_iff.mp hx) with rfl | hx
        · exact .inr ⟨s, s₁, hattempt⟩
        · exact pass_processed k i true (swapRemove l i) hrest x hx
      | false => exact pass_processed k (i + 1) any l hrest x hx

/-- **A loop that ends without an error has processed every item.** -/
theorem loop_processed {unresolved : E} : ∀ (fuel : Nat) (l : List β) {s s' : S},
    (loop attempt unresolved fuel l).run h s = (.ok (), s') → ∀ x ∈ l, Processed h attempt x
  | _, [], _, _, _, _, hx => by simp at hx
  | 0, y :: l, s, s', hr, _, _ => by
    unfold loop at hr
    cases hr
  | fuel + 1, y :: l, s, s', hr, x, hx => by
    unfold loop at hr
    obtain ⟨r, s₁, hpass, hrest⟩ := Prog.of_run_bind _ hr
    rcases pass_processed _ _ _ _ hpass x hx with hx | hx
    · split at hrest
      · exact loop_processed fuel r.2 hrest x hx
      · cases hrest
    · exact hx

end Deferral

end Lib
