/-!
# Runs

Several parts that act on the same things take their steps in any order.  A system of such parts is
a relation between a state, an event and the state after it; a run is a list of events with the
states that they lead through, so a statement about all runs is one about every order of steps.

What every step preserves holds in every state of a run: `Run.invariant`, and `Run.history` where it
speaks of the events as well.  Where parts stand in a list, a step adds one at the end or replaces
one of them.
-/

namespace Courier

/-- A run of a system: its events one after the other, from the first state to the last one. -/
inductive Run {σ ε : Type} (step : σ → ε → σ → Prop) : σ → List ε → σ → Prop
  | nil (s : σ) : Run step s [] s
  | cons {s t u : σ} {e : ε} {es : List ε}
      (head : step s e t) (tail : Run step t es u) : Run step s (e :: es) u

namespace Run

variable {σ ε : Type} {step : σ → ε → σ → Prop} {s t u : σ} {es ds : List ε}

/-- Runs compose at a common state. -/
theorem append (hrun : Run step s es t) (hnext : Run step t ds u) :
    Run step s (es ++ ds) u := by
  induction hrun with
  | nil s => exact hnext
  | cons head tail ih => exact .cons head (ih hnext)

/-- A run in which something holds of every step is a run of any system that allows such steps. -/
theorem mono {other : σ → ε → σ → Prop} (hle : ∀ s e t, step s e t → other s e t)
    (hrun : Run step s es t) : Run other s es t := by
  induction hrun with
  | nil s => exact .nil s
  | cons head tail ih => exact .cons (hle _ _ _ head) ih

/-- Where an invariant makes every step one of another system, and is preserved by it, the run is
one of that system. -/
theorem mono_of_invariant {other : σ → ε → σ → Prop} (Inv : σ → Prop) (hrun : Run step s es t)
    (hfirst : Inv s) (hstep : ∀ s e t, Inv s → step s e t → other s e t ∧ Inv t) :
    Run other s es t := by
  induction hrun with
  | nil s => exact .nil s
  | cons head tail ih =>
    obtain ⟨hother, hnext⟩ := hstep _ _ _ hfirst head
    exact .cons hother (ih hnext)

/-- **Invariants.**  What holds at first and is preserved by every step holds at the end of every
run. -/
theorem invariant (Inv : σ → Prop) (hrun : Run step s es t) (hfirst : Inv s)
    (hstep : ∀ s e t, Inv s → step s e t → Inv t) : Inv t := by
  induction hrun with
  | nil s => exact hfirst
  | cons head tail ih => exact ih (hstep _ _ _ hfirst head)

/-- What holds at first and is preserved by every step may also speak of the events so far. -/
theorem history (Inv : List ε → σ → Prop) (hrun : Run step s es t) (hfirst : Inv [] s)
    (hstep : ∀ ds s e t, Inv ds s → step s e t → Inv (ds ++ [e]) t) : Inv es t := by
  have hall : ∀ ds, Inv ds s → Inv (ds ++ es) t := by
    clear hfirst
    induction hrun with
    | nil s =>
      intro ds hs
      rwa [List.append_nil]
    | @cons s t u e es head tail ih =>
      intro ds hs
      have hnext := ih (ds ++ [e]) (hstep ds s e t hs head)
      rwa [List.append_assoc] at hnext
  exact hall [] hfirst

/-- Where the events decide every step, they decide the run. -/
theorem unique (hstep : ∀ s e t u, step s e t → step s e u → t = u) (hrun : Run step s es t)
    (hother : Run step s es u) : t = u := by
  induction hrun with
  | nil s =>
    cases hother
    rfl
  | cons head tail ih =>
    cases hother with
    | cons head' tail' =>
      obtain rfl := hstep _ _ _ _ head head'
      exact ih tail'

end Run

/-! ## The parts of a system -/

/-- An element of a list with one more element at its end was there before, or it is that one. -/
theorem getElem?_or_eq_of_concat {α : Type} {xs : List α} {a x : α} {k : Nat}
    (h : (xs ++ [a])[k]? = some x) : xs[k]? = some x ∨ x = a := by
  rcases Nat.lt_or_ge k xs.length with hk | hk
  · exact .inl ((List.getElem?_append_left hk).symm.trans h)
  · have hlast : [a][k - xs.length]? = some x := (List.getElem?_append_right hk).symm.trans h
    exact .inr (List.mem_singleton.mp (List.mem_of_getElem? hlast))

/-- An element stays where it is, unless it is the one that is replaced. -/
theorem eq_or_getElem?_set {α : Type} {xs : List α} {a x : α} {j k : Nat} (hk : xs[k]? = some a)
    (hj : xs[j]? = some x) (b : α) : (k = j ∧ a = x) ∨ (xs.set k b)[j]? = some x := by
  by_cases h : k = j
  · subst h
    exact .inl ⟨rfl, Option.some.inj (hk.symm.trans hj)⟩
  · exact .inr ((List.getElem?_set_ne h).trans hj)

end Courier
