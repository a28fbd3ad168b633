import ElementFinder.Proofs.Resolution.Modes
import ElementFinder.Proofs.Resolution.Parent

/-!
# The first match is the head of all matches

How many matches are wanted shows in different places: behind a live query, not at all for an
element picked from a chain, before the matches of a path expression are found again, behind the
filter of a parent lookup, and in the last of the lookups for a sibling.  In each of them the call
for the first match gives the head of what the call for all gives (`Access.Heads`), and so does any
lookup that is put together from them.

Where the cut is made before the matches are found again, this needs the tree to be numeric: then
every match is found, and the first does not depend on the others (`Captured.run_first`).
-/

namespace ElementFinder

/-- A resolution with its first element at most. -/
def Resolution.head (r : Resolution) : Resolution :=
  ⟨r.elements.take 1, r.diagnostics⟩

theorem Resolution.head_of_empty {r : Resolution} (h : r.elements = []) : r.head = r := by
  obtain ⟨elements, diagnostics⟩ := r
  obtain rfl : elements = [] := h
  rfl

namespace Access

/-- Asking a lookup for the first match gives the head of what asking it for all gives. -/
def Heads (t : LiveTree) (lookup : MatchMode → Access Resolution) : Prop :=
  ∃ r, (lookup .all).Yields t r ∧ (lookup .first).Yields t (r.map Resolution.head)

namespace Heads

variable {t : LiveTree} {lookup : MatchMode → Access Resolution}

theorem runStill_eq (h : Heads t lookup) :
    (lookup .first).runStill t = ((lookup .all).runStill t).map Resolution.head := by
  obtain ⟨r, hall, hfirst⟩ := h
  rw [hall.runStill_eq, hfirst.runStill_eq]

/-- Cutting the result of a lookup takes its head. -/
theorem of_cuts (h : Cuts t lookup) : Heads t lookup := by
  obtain ⟨r, hr⟩ := h
  refine ⟨r, ?_, hr .first⟩
  have hall := hr .all
  cases r with
  | error e => exact hall
  | ok found => exact hall

theorem of_error {e : LocatorError} (h : ∀ mode, (lookup mode).Yields t (.error e)) :
    Heads t lookup :=
  ⟨.error e, h .all, h .first⟩

/-- A result without elements is its own head. -/
theorem of_empty (found : Resolution) (hempty : found.elements = [])
    (h : ∀ mode, (lookup mode).Yields t (.ok found)) : Heads t lookup := by
  refine ⟨.ok found, h .all, ?_⟩
  rw [Except.map, Resolution.head_of_empty hempty]
  exact h .first

/-- What is asked before does not matter. -/
theorem after {α : Type} {y : Access α} {a : α} {lookup : α → MatchMode → Access Resolution}
    (hy : y.Yields t (.ok a)) (h : Heads t (lookup a)) :
    Heads t fun mode => y >>= fun a => lookup a mode := by
  obtain ⟨r, hall, hfirst⟩ := h
  exact ⟨r, hy.bind hall, hy.bind hfirst⟩

/-- Path expressions are cut before the matches are found again. -/
theorem xpath (ht : t.Reachable) {origin : Handle} {x : Nat} (hx : t.liveId? origin = some x)
    (hnumeric : t.Numeric) (options : ResolverOptions) (expression : String) :
    Heads t fun mode => resolveXPath options expression origin mode := by
  obtain ⟨d, hproblem⟩ | ⟨r, c, hr, hc, hroot, hresolve⟩ :=
    ht.wellFormed.resolveXPath_cases hx options expression
  · exact of_empty (.ofProblem d) rfl hproblem
  · have hlive : t.liveId? r.liveRoot = some x := by
      rw [hroot, hx]
    obtain ⟨found, hall, hfirst⟩ := hr.run_first hc ht hlive hnumeric options
    exact ⟨.ok ⟨found, []⟩, hresolve .all _ hall, hresolve .first _ hfirst⟩

/-- **Locators of every strategy.** -/
theorem locator (ht : t.Reachable) {origin : Handle} {x : Nat} (hx : t.liveId? origin = some x)
    (hnumeric : t.Numeric) (options : ResolverOptions) (l : Locator) :
    Heads t fun mode => l.resolve options origin mode := by
  by_cases hl : l.strategy = .xpath
  · simp only [Locator.resolve, hl]
    exact xpath ht hx hnumeric options l.value
  · exact of_cuts (.locator ht hx options hl)

/-- A lookup that needs a child locator fails, or reports a locator that it cannot read, before it
looks at anything. -/
theorem of_child {child : Locator} {having : Predicate → MatchMode → Access Resolution}
    (h : ∀ p, Heads t (having p)) :
    Heads t fun mode =>
      if !child.strategy.describesSingle then throw child.unsupported
      else
        match child.childPredicate with
        | .error d => return .ofProblem d
        | .ok p => having p mode := by
  cases child.strategy.describesSingle with
  | false => exact of_error fun _ => .throw child.unsupported
  | true =>
      cases child.childPredicate with
      | error d => exact of_empty (.ofProblem d) rfl fun _ => .pure _
      | ok p => exact h p

/-- **Parent lookups.** -/
theorem parent (ht : t.Reachable) {origin : Handle} {x : Nat} (hx : t.liveId? origin = some x)
    (options : ResolverOptions) (parent child : Locator) :
    Heads t fun mode => findParent options parent child origin mode := by
  refine of_child fun p => ?_
  obtain ⟨r, hfilters⟩ := Filters.parent ht hx options parent p
  refine of_cuts ⟨r.map fun found =>
    ⟨found.elements.filter (t.holdsUnder p), found.diagnostics⟩, fun mode => ?_⟩
  have hhaving := hfilters.having_yields mode
  cases r with
  | error e => exact hhaving
  | ok found => exact hhaving

/-- The anchor of a sibling lookup is a live element, or nothing is found. -/
theorem liveElement_yields (ht : t.Reachable) {origin : Handle} {x : Nat}
    (hx : t.liveId? origin = some x) (options : ResolverOptions) (s : Snapshot) (id : Nat) :
    (∃ h y, t.liveId? h = some y ∧ (liveElement options s id origin).Yields t (.ok (.ok h))) ∨
      ∃ found : Resolution, found.elements = [] ∧
        (liveElement options s id origin).Yields t (.ok (.error found)) := by
  rw [liveElement]
  split_ifs with hroot
  · exact .inl ⟨origin, x, hx, .pure _⟩
  · let r : Reconciliation := ⟨((s.markup options.indexPathRoot).places.filter
      fun place => place.2 = id).take 1, s, origin, false⟩
    have hrun := Reconciliation.run_yields (r := r) ht hx options
    cases hlast : List.getLast? (Resolution.elements _) with
    | none =>
        refine .inr ⟨_, List.getLast?_eq_none_iff.mp hlast, hrun.bind ?_⟩
        rw [hlast]
        exact .pure _
    | some h =>
        obtain ⟨y, hy⟩ := Reconciliation.live_of_mem_outcomes (r := r) ht hx
          (List.mem_of_getLast? hlast)
        refine .inl ⟨h, y, hy, hrun.bind ?_⟩
        rw [hlast]
        exact .pure _

/-- **Sibling lookups.** -/
theorem sibling (ht : t.Reachable) {origin : Handle} {x : Nat} (hx : t.liveId? origin = some x)
    (hnumeric : t.Numeric) (options : ResolverOptions) (child sibling : Locator) :
    Heads t fun mode => findSibling options child sibling origin mode := by
  refine of_child fun p => ?_
  obtain ⟨c, hsnapshot, -, -⟩ := ht.wellFormed.snapshot_live hx
  refine after (Yields.snapshot hsnapshot) ?_
  cases hfirst : c.snapshot.firstBelow? p with
  | none => exact of_empty {} rfl fun _ => .pure _
  | some id =>
      obtain ⟨anchor, y, hy, hlive⟩ | ⟨found, hempty, hlive⟩ :=
        liveElement_yields ht hx options c.snapshot (c.snapshot.siblingAnchor id)
      · exact after hlive (locator ht hy hnumeric options sibling)
      · exact after hlive (of_empty found hempty fun _ => .pure _)

end Heads

end Access

namespace LiveTree

/-- **The first match is the head of all matches.**  On a numeric tree, asking for the first match
and asking for all fail in the same way, or both succeed with the same reports, and the elements
of the first call are the first of those of the other.  This holds of every locator, every parent
lookup and every sibling lookup. -/
theorem Reachable.first_is_head {t : LiveTree} (ht : t.Reachable) {origin : Handle} {x : Nat}
    (hx : t.liveId? origin = some x) (hnumeric : t.Numeric) (options : ResolverOptions) :
    (∀ l : Locator, (l.resolve options origin .first).runStill t =
      ((l.resolve options origin .all).runStill t).map Resolution.head) ∧
    (∀ parent child, (findParent options parent child origin .first).runStill t =
      ((findParent options parent child origin .all).runStill t).map Resolution.head) ∧
    ∀ child sibling, (findSibling options child sibling origin .first).runStill t =
      ((findSibling options child sibling origin .all).runStill t).map Resolution.head :=
  ⟨fun l => (Access.Heads.locator ht hx hnumeric options l).runStill_eq,
    fun parent child => (Access.Heads.parent ht hx options parent child).runStill_eq,
    fun child sibling => (Access.Heads.sibling ht hx hnumeric options child sibling).runStill_eq⟩

/-- The first row alone. -/
theorem first_is_head_rows :
    (ofFixture .rows).Reachable ∧
    (ofFixture .rows).liveId? ⟨"node-0"⟩ = some 0 ∧
    (ofFixture .rows).Numeric ∧
    (Locator.resolve {} ⟨.id, "row"⟩ ⟨"node-0"⟩ .all).runStill (ofFixture .rows) =
      .ok ⟨[.ofNumber 1, .ofNumber 3, .ofNumber 4], []⟩ ∧
    (Locator.resolve {} ⟨.id, "row"⟩ ⟨"node-0"⟩ .first).runStill (ofFixture .rows) =
      .ok ⟨[.ofNumber 1], []⟩ := by
  have hroot : (ofFixture .rows).liveId? ⟨"node-0"⟩ = some 0 := by decide
  have hnumeric : (ofFixture .rows).Numeric := by
    unfold Numeric
    decide +kernel
  obtain ⟨hlocators, -, -⟩ := reachable_rows.first_is_head hroot hnumeric {}
  refine ⟨reachable_rows, hroot, hnumeric, resolve_rows, ?_⟩
  rw [hlocators, resolve_rows]
  rfl

end LiveTree

end ElementFinder
