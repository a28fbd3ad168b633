import ElementFinder.Proofs.Resolution.Child
import ElementFinder.Proofs.Resolution.SameTree

/-!
# Resolutions on a still tree

On a tree that nothing interferes with every locator leads to one result.  For all strategies but
path expressions that result is found first, and then as much of it is taken as is wanted
(`Access.Cuts`); the matches of a path expression are cut before they are found again.
-/

namespace ElementFinder

/-- A resolution with as many of its elements as a mode wants. -/
def Resolution.cut (r : Resolution) (mode : MatchMode) : Resolution :=
  ⟨mode.apply r.elements, r.diagnostics⟩

theorem Resolution.cut_of_empty {r : Resolution} (h : r.elements = []) (mode : MatchMode) :
    r.cut mode = r := by
  obtain ⟨elements, diagnostics⟩ := r
  obtain rfl : elements = [] := h
  cases mode <;> rfl

namespace Access

/-- A lookup has one result and takes from it what a mode wants. -/
def Cuts (t : LiveTree) (lookup : MatchMode → Access Resolution) : Prop :=
  ∃ r : Except LocatorError Resolution, ∀ mode,
    (lookup mode).Yields t (r.map fun found => found.cut mode)

namespace Cuts

variable {t : LiveTree} {lookup : MatchMode → Access Resolution}

theorem of_error {e : LocatorError} (h : ∀ mode, (lookup mode).Yields t (.error e)) :
    Cuts t lookup :=
  ⟨.error e, h⟩

/-- There is nothing to cut in a result without elements. -/
theorem of_empty (found : Resolution) (hempty : found.elements = [])
    (h : ∀ mode, (lookup mode).Yields t (.ok found)) : Cuts t lookup := by
  refine ⟨.ok found, fun mode => ?_⟩
  rw [Except.map, Resolution.cut_of_empty hempty]
  exact h mode

/-- What is asked before does not matter. -/
theorem after {α : Type} {y : Access α} {a : α} {lookup : α → MatchMode → Access Resolution}
    (hy : y.Yields t (.ok a)) (h : Cuts t (lookup a)) :
    Cuts t fun mode => y >>= fun a => lookup a mode := by
  obtain ⟨r, hr⟩ := h
  exact ⟨r, fun mode => hy.bind (hr mode)⟩

theorem query {q : ElementQuery} {ys : List Nat} (h : t.Finds q ys) (ht : t.WellFormed)
    (diagnostics : List Diagnostic) : Cuts t fun mode => q.resolve mode diagnostics :=
  ⟨.ok ⟨ys.map Handle.ofNumber, diagnostics⟩, fun mode => h.resolve_yields ht mode diagnostics⟩

theorem chain (ht : t.Reachable) {origin : Handle} {x : Nat} (hx : t.liveId? origin = some x)
    (c : Chain) (diagnostics : List Diagnostic) :
    Cuts t fun mode => do return ⟨← c.resolve origin mode, diagnostics⟩ := by
  by_cases hc : c = []
  · subst hc
    have hwalk : (Chain.walk [] origin).Yields t (.error (.emptyChain (Chain.display []))) :=
      Yields.throw _
    exact of_error fun mode => Yields.bind_error (Yields.bind_error hwalk)
  have hresolve := Chain.resolve_yields ht hx hc
  cases hresult : t.evaluate false [x] c with
  | error e =>
      rw [hresult] at hresolve
      exact of_error fun mode => Yields.bind_error (hresolve mode)
  | ok ys =>
      rw [hresult] at hresolve
      exact ⟨.ok ⟨ys.map Handle.ofNumber, diagnostics⟩, fun mode =>
        Yields.bind (hresolve mode) (.pure _)⟩

/-- **All strategies but path expressions.** -/
theorem locator (ht : t.Reachable) {origin : Handle} {x : Nat} (hx : t.liveId? origin = some x)
    (options : ResolverOptions) {l : Locator} (hl : l.strategy ≠ .xpath) :
    Cuts t fun mode => l.resolve options origin mode := by
  have hwf := ht.wellFormed
  cases hstrategy : l.strategy with
  | id | accessibilityId | identifier =>
      simp only [Locator.resolve, hstrategy]
      exact query (LiveTree.finds_identified hwf hx l.value) hwf []
  | name =>
      simp only [Locator.resolve, hstrategy]
      exact after (namedPredicate_yields t l.value)
        (query (LiveTree.finds_satisfying hwf hx (.textEquals .name l.value)) hwf [])
  | className =>
      simp only [Locator.resolve, hstrategy]
      exact query (LiveTree.finds_below hwf hx _) hwf _
  | predicate =>
      cases hparse : Predicate.parse l.value with
      | error e =>
          simp only [Locator.resolve, hstrategy, hparse]
          exact of_empty (.ofProblem (.invalidPredicate l.value e.message)) rfl fun _ => .pure _
      | ok p =>
          simp only [Locator.resolve, hstrategy, hparse]
          exact query (LiveTree.finds_satisfying hwf hx p) hwf []
  | classChain =>
      simp only [Locator.resolve, hstrategy]
      exact chain ht hx _ _
  | xpath => exact absurd hstrategy hl

end Cuts

end Access

/-- **Every locator leads to one result**, whichever mode it is asked in. -/
theorem LiveTree.Reachable.resolve_yields {t : LiveTree} (ht : t.Reachable) {origin : Handle}
    {x : Nat} (hx : t.liveId? origin = some x) (options : ResolverOptions) (l : Locator)
    (mode : MatchMode) : ∃ r, (l.resolve options origin mode).Yields t r := by
  by_cases hl : l.strategy = .xpath
  · simp only [Locator.resolve, hl]
    obtain ⟨d, hproblem⟩ | ⟨r, -, -, -, hroot, hresolve⟩ :=
      ht.wellFormed.resolveXPath_cases hx options l.value
    · exact ⟨_, hproblem mode⟩
    · have hlive : t.liveId? r.liveRoot = some x := by
        rw [hroot, hx]
      have hrun := Reconciliation.run_yields (r := { r with matched := mode.apply r.matched }) ht
        hlive options
      exact ⟨_, hresolve mode _ hrun⟩
  · obtain ⟨r, hr⟩ := Access.Cuts.locator ht hx options hl
    exact ⟨_, hr mode⟩

end ElementFinder
