import ElementFinder.Proofs.Resolution.Child
import ElementFinder.Proofs.Resolution.SameTree

/-!
# Parents are filtered by what lies below them

A parent lookup does not resolve the parent locator and then look below what was found.  Most
strategies extend the query of the parent by one more step, an indexed end of a chain is looked at
on its own, and the elements of a path expression are looked at one by one; and the child locator
is turned into a predicate.  `Reachable.findParent_filters` says that all of this comes to the
same: the elements of the parent locator from which the child locator leads anywhere.

`Access.Filters` is what every strategy is shown to do.  Where the query is extended, that is
because a step that only keeps or drops elements filters what a query finds (`Finds.keep`).
-/

namespace ElementFinder

namespace LiveTree

variable {t : LiveTree}

/-! ## Looking below elements -/

/-- Whether a predicate holds of an element below a live element. -/
def holdsBelow (t : LiveTree) (p : Predicate) (y : Nat) : Bool :=
  (t.descendants y).any (t.satisfies p)

/-- A query that asks for an element below filters by it. -/
theorem Finds.containing {q : ElementQuery} {ys : List Nat} (h : t.Finds q ys)
    (ht : t.WellFormed) (p : Predicate) :
    t.Finds (q.step (.containing .any p)) (ys.filter (t.holdsBelow p)) := by
  refine h.keep ?_
  intro y hy z
  have hlisted := h.ordered.subset hy
  rw [QueryStep.Relates, holdsBelow, List.any_eq_true]
  refine and_congr_right fun _ => exists_congr fun w => ?_
  rw [ht.mem_descendants hlisted]
  refine and_congr_right fun hbelow => and_iff_right ?_
  obtain ⟨node, hnode⟩ := ht.mem_documentOrder.mp hlisted
  have hlive := ht.live_of_within hnode (Relation.TransGen.to_reflTransGen hbelow)
  exact ht.hasType_any (ht.mem_documentOrder.mpr hlive)

/-- Whether a predicate holds of an element below the one that a handle names. -/
def holdsUnder (t : LiveTree) (p : Predicate) (h : Handle) : Bool :=
  (t.liveId? h).any (t.holdsBelow p)

/-- Looking below a live element yields whether the predicate holds of anything there. -/
theorem hasBelow_yields (ht : t.WellFormed) {h : Handle} {y : Nat}
    (hy : t.liveId? h = some y) (p : Predicate) :
    (hasBelow h p).Yields t (.ok (t.holdsUnder p h)) := by
  have hsome : (!(((t.descendants y).filter (t.satisfies p)).map Handle.ofNumber).isEmpty) =
      t.holdsUnder p h := by
    rw [Bool.eq_iff_iff]
    simp [holdsUnder, holdsBelow, hy]
  rw [← hsome]
  exact (Access.Yields.query ((finds_satisfying ht hy p).query_eq ht)).bind (.pure _)

/-- Elements looked at one by one are filtered. -/
theorem keepHaving_yields (ht : t.WellFormed) {hs : List Handle}
    (hlive : ∀ h ∈ hs, ∃ y, t.liveId? h = some y) (p : Predicate) :
    (keepHaving p hs).Yields t (.ok (hs.filter (t.holdsUnder p))) := by
  induction hs with
  | nil => exact .pure _
  | cons h hs ih =>
      obtain ⟨⟨y, hy⟩, hothers⟩ := List.forall_mem_cons.mp hlive
      rw [keepHaving]
      refine (hasBelow_yields ht hy p).bind ?_
      cases hkeep : t.holdsUnder p h with
      | false =>
          rw [List.filter_cons_of_neg (by simp [hkeep])]
          exact ih hothers
      | true =>
          rw [List.filter_cons_of_pos hkeep]
          exact (ih hothers).bind (.pure _)

end LiveTree

/-! ## Lookups that filter -/

/-- One element at most is not cut. -/
theorem MatchMode.apply_of_length_le {α : Type} (mode : MatchMode) {items : List α}
    (h : items.length ≤ 1) : mode.apply items = items := by
  cases mode with
  | first => exact List.take_of_length_le h
  | all => rfl

namespace Access

/-- A lookup filters another, whose result is `r`: it fails the same way, or gives the elements
that the other finds and the test keeps, as many as the mode wants, with the reports of the other.
The elements found are live. -/
structure Filters (t : LiveTree) (keep : Handle → Bool) (r : Except LocatorError Resolution)
    (plain : Access Resolution) (having : MatchMode → Access Resolution) : Prop where
  plain_yields : plain.Yields t r
  live : ∀ found, r = .ok found → ∀ h ∈ found.elements, ∃ y, t.liveId? h = some y
  having_yields : ∀ mode, (having mode).Yields t
    (r.map fun found => ⟨mode.apply (found.elements.filter keep), found.diagnostics⟩)

namespace Filters

variable {t : LiveTree} {keep : Handle → Bool} {plain : Access Resolution}
  {having : MatchMode → Access Resolution}

/-- A lookup that fails has nothing to filter. -/
theorem of_error {e : LocatorError} (hplain : plain.Yields t (.error e))
    (hhaving : ∀ mode, (having mode).Yields t (.error e)) :
    Filters t keep (.error e) plain having :=
  ⟨hplain, fun _ hfound => absurd hfound (by simp), hhaving⟩

/-- A lookup that only reports a problem has nothing to filter. -/
theorem of_problem (d : Diagnostic) :
    Filters t keep (.ok (.ofProblem d)) (pure (.ofProblem d)) fun _ => pure (.ofProblem d) where
  plain_yields := .pure _
  live := by
    intro found hfound h hh
    obtain rfl := Except.ok.inj hfound
    exact absurd hh List.not_mem_nil
  having_yields := by
    intro mode
    cases mode <;> exact .pure _

/-- A lookup that asks first what the other asks first filters as what follows does. -/
theorem after {α : Type} {y : Access α} {a : α} {r : Except LocatorError Resolution}
    {plain : α → Access Resolution} {having : α → MatchMode → Access Resolution}
    (hy : y.Yields t (.ok a)) (h : Filters t keep r (plain a) (having a)) :
    Filters t keep r (y >>= plain) fun mode => y >>= fun a => having a mode :=
  ⟨hy.bind h.plain_yields, h.live, fun mode => hy.bind (h.having_yields mode)⟩

/-- A query with one more step filters the query. -/
theorem query (ht : t.Reachable) {q : ElementQuery} {ys : List Nat} (h : t.Finds q ys)
    (p : Predicate) (diagnostics : List Diagnostic) :
    Filters t (t.holdsUnder p) (.ok ⟨ys.map Handle.ofNumber, diagnostics⟩)
      (q.resolve .all diagnostics) fun mode => q.resolveHaving p mode diagnostics where
  plain_yields := h.resolve_yields ht.wellFormed .all diagnostics
  live := by
    intro found hfound e he
    obtain rfl := Except.ok.inj hfound
    obtain ⟨y, hy, rfl⟩ := List.mem_map.mp he
    exact ⟨y, ht.liveId?_of_mem (h.ordered.subset hy)⟩
  having_yields := by
    intro mode
    have hunder : ys.filter (t.holdsUnder p ∘ Handle.ofNumber) = ys.filter (t.holdsBelow p) := by
      apply List.filter_congr
      intro y hy
      simp [LiveTree.holdsUnder, ht.liveId?_of_mem (h.ordered.subset hy)]
    have hsame : (ys.map Handle.ofNumber).filter (t.holdsUnder p) =
        (ys.filter (t.holdsBelow p)).map Handle.ofNumber := by
      rw [List.filter_map, hunder]
    change (ElementQuery.resolve _ mode diagnostics).Yields t
      (.ok ⟨mode.apply ((ys.map Handle.ofNumber).filter (t.holdsUnder p)), diagnostics⟩)
    rw [hsame]
    exact (h.containing ht.wellFormed p).resolve_yields ht.wellFormed mode diagnostics

/-- Looking at the elements found one by one filters them. -/
theorem one_by_one (ht : t.WellFormed) {found : Resolution} (hplain : plain.Yields t (.ok found))
    (hlive : ∀ h ∈ found.elements, ∃ y, t.liveId? h = some y) (p : Predicate) :
    Filters t (t.holdsUnder p) (.ok found) plain fun mode => do
      let candidates ← plain
      return ⟨mode.apply (← keepHaving p candidates.elements), candidates.diagnostics⟩ where
  plain_yields := hplain
  live := by
    intro found' hfound'
    obtain rfl := Except.ok.inj hfound'
    exact hlive
  having_yields := fun _ =>
    hplain.bind ((LiveTree.keepHaving_yields ht hlive p).bind (.pure _))

/-- The end of a chain is filtered, whether it is a query or an element picked. -/
theorem chain (ht : t.Reachable) {origin : Handle} {x : Nat} (hx : t.liveId? origin = some x)
    (c : Chain) (p : Predicate) (diagnostics : List Diagnostic) :
    ∃ r, Filters t (t.holdsUnder p) r (do return ⟨← c.resolve origin .all, diagnostics⟩)
      fun mode => do
        match ← c.walk origin with
        | .query q => q.resolveHaving p mode diagnostics
        | .element h => return ⟨← keepHaving p [h], diagnostics⟩ := by
  by_cases hc : c = []
  · subst hc
    have hwalk : (Chain.walk [] origin).Yields t (.error (.emptyChain (Chain.display []))) :=
      Yields.throw _
    have hresolve : (Chain.resolve [] origin .all).Yields t
        (.error (.emptyChain (Chain.display []))) := hwalk.bind_error
    exact ⟨_, of_error hresolve.bind_error fun _ => hwalk.bind_error⟩
  have hagrees := Chain.walk_agrees ht hx hc
  have hresolve := Chain.resolve_yields ht hx hc .all
  cases hresult : t.evaluate false [x] c with
  | error e =>
      rw [hresult] at hagrees hresolve
      exact ⟨_, of_error (Yields.bind_error hresolve) fun _ => Yields.bind_error hagrees⟩
  | ok ys =>
      rw [hresult] at hagrees hresolve
      obtain ⟨target, hwalk, hstands⟩ := hagrees
      refine ⟨.ok ⟨ys.map Handle.ofNumber, diagnostics⟩, Yields.bind hresolve (.pure _), ?_, ?_⟩
      · intro found hfound h hh
        obtain rfl := Except.ok.inj hfound
        obtain ⟨y, hy, rfl⟩ := List.mem_map.mp hh
        have hsub := LiveTree.evaluate_sublist c false
          (LiveTree.finds_start ht.wellFormed hx).ordered hresult
        exact ⟨y, ht.liveId?_of_mem (hsub.subset hy)⟩
      intro mode
      cases target with
      | query q => exact Yields.bind hwalk ((query ht hstands p diagnostics).having_yields mode)
      | element h =>
          obtain ⟨y, hy, rfl, rfl⟩ := hstands
          have hlive : ∀ h ∈ [Handle.ofNumber y], ∃ z, t.liveId? h = some z := by
            intro h hh
            obtain rfl := List.mem_singleton.mp hh
            exact ⟨y, ht.liveId?_of_mem hy⟩
          have hone : (([Handle.ofNumber y].filter (t.holdsUnder p)).length) ≤ 1 :=
            List.length_filter_le _ _
          have hkeep := LiveTree.keepHaving_yields ht.wellFormed hlive p
          rw [← mode.apply_of_length_le hone] at hkeep
          exact Yields.bind hwalk (hkeep.bind (.pure _))

/-- **Parent lookups filter their parent locator.** -/
theorem parent (ht : t.Reachable) {origin : Handle} {x : Nat} (hx : t.liveId? origin = some x)
    (options : ResolverOptions) (l : Locator) (p : Predicate) :
    ∃ r, Filters t (t.holdsUnder p) r (l.resolve options origin .all)
      fun mode => parentsHaving options l p origin mode := by
  have hwf := ht.wellFormed
  cases hstrategy : l.strategy with
  | id | accessibilityId | identifier =>
      have hfilters := query ht (LiveTree.finds_identified hwf hx l.value) p []
      exact ⟨_, by simpa only [Locator.resolve, parentsHaving, hstrategy] using hfilters⟩
  | name =>
      simp only [Locator.resolve, parentsHaving, hstrategy]
      exact ⟨_, after (namedPredicate_yields t l.value)
        (query ht (LiveTree.finds_satisfying hwf hx (.textEquals .name l.value)) p [])⟩
  | className =>
      have hfilters := query ht (LiveTree.finds_below hwf hx (ElementType.orWildcard l.value).1) p
        (ElementType.orWildcard l.value).2
      exact ⟨_, by simpa only [Locator.resolve, parentsHaving, hstrategy] using hfilters⟩
  | predicate =>
      cases hparse : Predicate.parse l.value with
      | error e =>
          simp only [Locator.resolve, parentsHaving, hstrategy, hparse]
          exact ⟨_, of_problem (.invalidPredicate l.value e.message)⟩
      | ok q =>
          have hfilters := query ht (LiveTree.finds_satisfying hwf hx q) p []
          exact ⟨_, by simpa only [Locator.resolve, parentsHaving, hstrategy, hparse]
            using hfilters⟩
  | classChain =>
      simp only [Locator.resolve, parentsHaving, hstrategy]
      exact chain ht hx (ParsedChain.ofText l.value).chain p
        (ParsedChain.ofText l.value).diagnostics
  | xpath =>
      have hplain : ∃ found : Resolution, (l.resolve options origin .all).Yields t (.ok found) ∧
          ∀ h ∈ found.elements, ∃ y, t.liveId? h = some y := by
        simp only [Locator.resolve, hstrategy]
        obtain ⟨d, hproblem⟩ | ⟨r, c, -, -, hroot, hresolve⟩ :=
          hwf.resolveXPath_cases hx options l.value
        · exact ⟨_, hproblem .all, fun h hh => absurd hh List.not_mem_nil⟩
        · have hlive : t.liveId? r.liveRoot = some x := by rw [hroot, hx]
          exact ⟨_, hresolve .all _ (Reconciliation.run_yields ht hlive options),
            fun h hh => Reconciliation.live_of_mem_outcomes ht hlive hh⟩
      obtain ⟨found, hyields, hlive⟩ := hplain
      simp only [parentsHaving, hstrategy]
      exact ⟨_, one_by_one hwf hyields hlive p⟩

end Filters

end Access

namespace LiveTree

variable {t : LiveTree} {origin : Handle} {x : Nat}

/-- Whether a locator leads anywhere from an element. -/
def leadsAnywhere (t : LiveTree) (options : ResolverOptions) (l : Locator) (e : Handle) : Bool :=
  ((l.resolve options e .all).runStill t).toOption.any fun below => !below.elements.isEmpty

/-- A child locator leads somewhere when its predicate holds of an element below. -/
theorem Reachable.leadsAnywhere_eq (ht : t.Reachable) {e : Handle} {y : Nat}
    (hy : t.liveId? e = some y) {l : Locator} (hl : l.CanDescribe) {p : Predicate}
    (hp : ∀ v, p.holds v = l.describes v) (options : ResolverOptions) :
    t.leadsAnywhere options l e = t.holdsUnder p e := by
  rw [leadsAnywhere, (ht.resolve_child hy hl options .all).runStill_eq, Bool.eq_iff_iff]
  simp [Except.toOption, MatchMode.apply, holdsUnder, holdsBelow, hy, satisfies_eq_shows hp]

/-- **Parents are the elements with a child.**  A parent lookup fails as its parent locator does.
Otherwise it gives the elements of the parent locator, in their order, from which the child
locator leads anywhere, all or the first of them, with the reports of the parent locator.  The
child locator can be resolved from each of them. -/
theorem Reachable.findParent_filters (ht : t.Reachable) (hx : t.liveId? origin = some x)
    (options : ResolverOptions) (parent : Locator) {child : Locator}
    (hchild : child.CanDescribe) :
    (findParent options parent child origin .all).runStill t =
        ((parent.resolve options origin .all).runStill t).map (fun found =>
          ⟨found.elements.filter (t.leadsAnywhere options child), found.diagnostics⟩) ∧
      (findParent options parent child origin .first).runStill t =
        ((parent.resolve options origin .all).runStill t).map (fun found =>
          ⟨(found.elements.filter (t.leadsAnywhere options child)).take 1,
            found.diagnostics⟩) ∧
      ∀ found, (parent.resolve options origin .all).runStill t = .ok found →
        ∀ e ∈ found.elements, ∃ below, (child.resolve options e .all).runStill t = .ok below := by
  obtain ⟨p, hread, hp⟩ := Locator.childPredicate_describes hchild
  obtain ⟨r, hfilters⟩ := Access.Filters.parent ht hx options parent p
  have hplain := hfilters.plain_yields.runStill_eq
  have hhaving : ∀ mode, (findParent options parent child origin mode).runStill t =
      ((parent.resolve options origin .all).runStill t).map fun found =>
        ⟨mode.apply (found.elements.filter (t.leadsAnywhere options child)),
          found.diagnostics⟩ := by
    intro mode
    have hfind : findParent options parent child origin mode =
        parentsHaving options parent p origin mode := by
      rw [findParent, hread, hchild.single]
      rfl
    rw [hfind, (hfilters.having_yields mode).runStill_eq, hplain]
    cases r with
    | error e => rfl
    | ok found =>
        have hsame : found.elements.filter (t.leadsAnywhere options child) =
            found.elements.filter (t.holdsUnder p) := by
          apply List.filter_congr
          intro e he
          obtain ⟨y, hy⟩ := hfilters.live found rfl e he
          exact ht.leadsAnywhere_eq hy hchild hp options
        simp only [Except.map, hsame]
  refine ⟨hhaving .all, hhaving .first, fun found hfound e he => ?_⟩
  obtain ⟨y, hy⟩ := hfilters.live found (hplain.symm.trans hfound) e he
  exact ⟨_, (ht.resolve_child hy hchild options .all).runStill_eq⟩

end LiveTree

/-- A screen with three rows, of which the first and the last hold a button. -/
def Fixture.rows : Fixture :=
  .mk { label := "screen" }
    [.mk { elementType := .cell, identifier := "row" }
       [.mk { elementType := .button, label := "edit" } []],
     .mk { elementType := .cell, identifier := "row" } [],
     .mk { elementType := .cell, identifier := "row" }
       [.mk { elementType := .button, label := "edit" } []]]

namespace LiveTree

/-- The example is reachable. -/
theorem reachable_rows : (ofFixture .rows).Reachable :=
  .load .rows (by decide)

/-- All three rows are found by their identifier. -/
theorem resolve_rows :
    (Locator.resolve {} ⟨.id, "row"⟩ ⟨"node-0"⟩ .all).runStill (ofFixture .rows) =
      .ok ⟨[.ofNumber 1, .ofNumber 3, .ofNumber 4], []⟩ := by
  let t := ofFixture .rows
  have hwf : t.WellFormed := reachable_rows.wellFormed
  have hrows : (t.descendants 0).filter (fun y =>
      (t.attributes? y).any fun a => decide (a.identifier = "row")) = [1, 3, 4] := by
    decide +kernel
  have hroot : t.liveId? ⟨"node-0"⟩ = some 0 := by decide
  have hyields := (finds_identified hwf hroot "row").resolve_yields hwf .all []
  rw [hrows] at hyields
  exact hyields.runStill_eq

/-- The rows with a button are the parents of a button, the empty row is not. -/
theorem findParent_filters_rows :
    (ofFixture .rows).Reachable ∧
    (ofFixture .rows).liveId? ⟨"node-0"⟩ = some 0 ∧
    Locator.CanDescribe ⟨.name, "edit"⟩ ∧
    (Locator.resolve {} ⟨.id, "row"⟩ ⟨"node-0"⟩ .all).runStill (ofFixture .rows) =
      .ok ⟨[.ofNumber 1, .ofNumber 3, .ofNumber 4], []⟩ ∧
    (findParent {} ⟨.id, "row"⟩ ⟨.name, "edit"⟩ ⟨"node-0"⟩ .all).runStill
      (ofFixture .rows) = .ok ⟨[.ofNumber 1, .ofNumber 4], []⟩ ∧
    (findParent {} ⟨.id, "row"⟩ ⟨.name, "edit"⟩ ⟨"node-0"⟩ .first).runStill
      (ofFixture .rows) = .ok ⟨[.ofNumber 1], []⟩ := by
  have hroot : (ofFixture .rows).liveId? ⟨"node-0"⟩ = some 0 := by decide
  have hchild : Locator.CanDescribe ⟨.name, "edit"⟩ := ⟨rfl, nofun⟩
  have hnamed := fun v : ElementView =>
    (Predicate.holds_name "edit" v).trans (show _ = Locator.describes ⟨.name, "edit"⟩ v from rfl)
  have hupper : (ofFixture .rows).leadsAnywhere {} ⟨.name, "edit"⟩ (.ofNumber 1) = true := by
    rw [reachable_rows.leadsAnywhere_eq (y := 1) (by decide) hchild hnamed]
    decide +kernel
  have hlower : (ofFixture .rows).leadsAnywhere {} ⟨.name, "edit"⟩ (.ofNumber 4) = true := by
    rw [reachable_rows.leadsAnywhere_eq (y := 4) (by decide) hchild hnamed]
    decide +kernel
  have hempty : (ofFixture .rows).leadsAnywhere {} ⟨.name, "edit"⟩ (.ofNumber 3) = false := by
    rw [reachable_rows.leadsAnywhere_eq (y := 3) (by decide) hchild hnamed]
    decide +kernel
  obtain ⟨hall, hfirst, -⟩ := reachable_rows.findParent_filters hroot {} ⟨.id, "row"⟩ hchild
  refine ⟨reachable_rows, hroot, hchild, resolve_rows, ?_, ?_⟩
  · rw [hall, resolve_rows]
    simp [Except.map, hupper, hempty, hlower]
  · rw [hfirst, resolve_rows]
    simp [Except.map, hupper, hempty, hlower]

end LiveTree

end ElementFinder
