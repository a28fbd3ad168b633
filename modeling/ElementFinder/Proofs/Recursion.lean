import Mathlib.Data.List.Forall2

/-!
# Recursions that return

The walks of this library carry a bound on their depth, and a recursion without a bound may call
itself for ever.  Whether it does is said here without a bound: a call returns when there is a
finite tree of calls below it, each of which makes its result from those of the calls that it makes
(`Returns`).

If every call is made with an argument of a higher rank and the ranks are bounded (`CallsUp`), calls
return.  A function of a depth and an argument that takes the same steps gives their results as soon
as the depth covers the ranks that are left (`CallsUp.returns_iff`).
-/

namespace ElementFinder

/-- A call of a recursion returns a result: the calls that it makes have all returned, and the
result is made from theirs. -/
inductive Returns {α β : Type} (calls : α → List α) (make : α → List β → β) : α → β → Prop
  | call {a : α} {results : List β} (below : List.Forall₂ (Returns calls make) (calls a) results) :
      Returns calls make a (make a results)

/-- Calls are made with arguments of a higher rank, and the ranks of these lie below a bound. -/
def CallsUp {α : Type} (calls : α → List α) (rank : α → Nat) (bound : Nat) : Prop :=
  ∀ a, ∀ b ∈ calls a, rank a < rank b ∧ rank b < bound

/-- Lists that are related by a function on the first list. -/
theorem forall₂_iff_eq_map {α β : Type} {R : α → β → Prop} {f : α → β} {xs : List α}
    (h : ∀ x ∈ xs, ∀ y, R x y ↔ y = f x) {ys : List β} :
    List.Forall₂ R xs ys ↔ ys = xs.map f := by
  induction xs generalizing ys with
  | nil => rw [List.forall₂_nil_left_iff, List.map_nil]
  | cons x xs ih =>
      obtain ⟨hx, hxs⟩ := List.forall_mem_cons.mp h
      rw [List.forall₂_cons_left_iff, List.map_cons]
      constructor
      · intro hforth
        obtain ⟨y, rest, hy, hrest, rfl⟩ := hforth
        rw [(hx y).mp hy, (ih hxs).mp hrest]
      · intro hback
        exact ⟨f x, xs.map f, (hx _).mpr rfl, (ih hxs).mpr rfl, hback⟩

namespace CallsUp

variable {α β : Type} {calls : α → List α} {make : α → List β → β} {rank : α → Nat} {bound : Nat}
  {g : Nat → α → β}

/-- **Induction down the calls.**  What holds of an argument as soon as it holds of all arguments
that it calls holds of every argument. -/
theorem call_induction (h : CallsUp calls rank bound) {P : α → Prop}
    (step : ∀ a, (∀ b ∈ calls a, P b) → P a) (a : α) : P a := by
  obtain ⟨left, hleft⟩ : ∃ left, bound ≤ left + rank a := ⟨bound, by omega⟩
  induction left generalizing a with
  | zero =>
      apply step
      intro b hb
      have := h a b hb
      omega
  | succ left ih =>
      apply step
      intro b hb
      have := h a b hb
      exact ih b (by omega)

/-- **Enough depth.**  Two depths that cover the ranks that are left give the same result. -/
theorem depth_stable (h : CallsUp calls rank bound)
    (hstep : ∀ depth a, g (depth + 1) a = make a ((calls a).map (g depth))) (a : α) :
    ∀ d e, 0 < d → 0 < e → bound ≤ d + rank a → bound ≤ e + rank a → g d a = g e a := by
  refine h.call_induction (P := fun a => ∀ d e, 0 < d → 0 < e → bound ≤ d + rank a →
    bound ≤ e + rank a → g d a = g e a) ?_ a
  intro a ih d e hd he hdepth hdepth'
  obtain ⟨d, rfl⟩ : ∃ n, d = n + 1 := ⟨d - 1, by omega⟩
  obtain ⟨e, rfl⟩ : ∃ n, e = n + 1 := ⟨e - 1, by omega⟩
  rw [hstep, hstep]
  congr 1
  apply List.map_congr_left
  intro b hb
  have := h a b hb
  exact ih b hb d e (by omega) (by omega) (by omega) (by omega)

/-- **Calls return.**  A call returns what is computed to the depth of the bound, and nothing
else. -/
theorem returns_iff (h : CallsUp calls rank bound) (hbound : 0 < bound)
    (hstep : ∀ depth a, g (depth + 1) a = make a ((calls a).map (g depth))) (a : α) (b : β) :
    Returns calls make a b ↔ b = g bound a := by
  revert b
  refine h.call_induction (P := fun a => ∀ b, Returns calls make a b ↔ b = g bound a) ?_ a
  intro a ih b
  have hequation : g bound a = make a ((calls a).map (g bound)) := by
    rw [← hstep]
    exact h.depth_stable hstep a bound (bound + 1) hbound (Nat.succ_pos bound) (by omega) (by omega)
  rw [hequation]
  constructor
  · intro hforth
    cases hforth with
    | call below => rw [(forall₂_iff_eq_map ih).mp below]
  · intro hback
    rw [hback]
    exact .call ((forall₂_iff_eq_map ih).mpr rfl)

end CallsUp

end ElementFinder
