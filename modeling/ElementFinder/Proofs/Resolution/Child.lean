import ElementFinder.Proofs.Chain.Meaning
import ElementFinder.Proofs.Resolution.Reconcile
import ElementFinder.Resolution.Relative

/-!
# Child locators

A child locator describes one element by its identifier, its name or a predicate.  Lookups for
relatives turn it into a predicate, whatever its strategy is, and that predicate asks for just what
the locator describes (`childPredicate_describes`).  Resolved by itself, the locator is a live query
with a condition, and finds the descendants that it describes (`Reachable.resolve_child`).
-/

namespace ElementFinder

/-! ## What a child locator asks for -/

namespace Locator

/-- Whether a locator for a single element describes an element: by its name, by a predicate, or
by its identifier. -/
def describes (l : Locator) (e : ElementView) : Bool :=
  match l.strategy with
  | .name => e.attributes.derivedName? = some l.value
  | .predicate => (Predicate.parse l.value).toOption.any fun p => p.holds e
  | _ => e.attributes.identifier = l.value

/-- A locator can describe a single element: its strategy does so, and a predicate can be
read. -/
structure CanDescribe (l : Locator) : Prop where
  single : l.strategy.describesSingle = true
  readable : l.strategy = .predicate → (Predicate.parse l.value).isOk = true

end Locator

namespace Predicate

/-- The predicate that an attribute equals a text. -/
def textEquals (subject : Attribute) (content : String) : Predicate :=
  .atom ⟨subject, .equal, {}, .text content⟩

/-- The predicate that an attribute equals a text is made from its key. -/
theorem equals_eq {key : String} {subject : Attribute} (hkey : Attribute.ofKey? key = some subject)
    (content : String) : equals key content = .ok (textEquals subject content) := by
  simp only [equals, attributeMatching, Comparison.ofDraft, hkey, TextComparison.operator]
  rfl

/-- The predicate on names can be made. -/
theorem equals_name (content : String) : equals "name" content = .ok (textEquals .name content) :=
  equals_eq (by decide) content

/-- The predicate on identifiers can be made. -/
theorem equals_identifier (content : String) :
    equals "identifier" content = .ok (textEquals .identifier content) :=
  equals_eq (by decide) content

/-- The predicate on names holds of the elements with the name. -/
theorem holds_name (content : String) (e : ElementView) :
    (textEquals .name content).holds e = decide (e.attributes.derivedName? = some content) := by
  cases hname : e.attributes.derivedName? with
  | none =>
      simp [textEquals, holds, Formula.eval, Comparison.holds, Comparison.holdsOf, Attribute.read,
        hname, Comparison.codeOfName, Comparison.equalValues]
  | some name =>
      simp [textEquals, holds, Formula.eval, Comparison.holds, Comparison.holdsOf, Attribute.read,
        hname, Comparison.codeOfName, Comparison.equalValues, Comparison.folded, String.toList_inj]

/-- The predicate on identifiers holds of the elements with the identifier. -/
theorem holds_identifier (content : String) (e : ElementView) :
    (textEquals .identifier content).holds e = decide (e.attributes.identifier = content) := by
  simp [textEquals, holds, Formula.eval, Comparison.holds, Comparison.holdsOf, Attribute.read,
    Comparison.codeOfName, Comparison.equalValues, Comparison.folded, String.toList_inj]

end Predicate

/-- The predicate on names is yielded. -/
theorem namedPredicate_yields (t : LiveTree) (name : String) :
    (namedPredicate name).Yields t (.ok (.textEquals .name name)) := by
  rw [namedPredicate, Predicate.equals_name]
  exact .pure _

/-- **A child locator and its predicate ask for the same.** -/
theorem Locator.childPredicate_describes {l : Locator} (hl : l.CanDescribe) :
    ∃ p, l.childPredicate = .ok p ∧ ∀ e, p.holds e = l.describes e := by
  have hsingle := hl.single
  cases hstrategy : l.strategy with
  | name =>
      refine ⟨_, by simp only [childPredicate, hstrategy, Predicate.equals_name]; rfl, ?_⟩
      intro e
      rw [Predicate.holds_name, describes, hstrategy]
  | predicate =>
      cases hparse : Predicate.parse l.value with
      | error error =>
          have hreads := hl.readable hstrategy
          rw [hparse] at hreads
          exact absurd hreads (by simp [Except.isOk, Except.toBool])
      | ok p =>
          refine ⟨p, by simp only [childPredicate, hstrategy, hparse]; rfl, ?_⟩
          intro e
          simp [describes, hstrategy, hparse, Except.toOption]
  | id | accessibilityId | identifier =>
      refine ⟨_, by simp only [childPredicate, hstrategy, Predicate.equals_identifier]; rfl, ?_⟩
      intro e
      rw [Predicate.holds_identifier, describes, hstrategy]
  | className | classChain | xpath =>
      rw [hstrategy] at hsingle
      exact absurd hsingle (by simp [Strategy.describesSingle])

namespace LiveTree

variable {t : LiveTree}

/-- Whether a locator describes a live element as it is seen in the whole tree. -/
def shows (t : LiveTree) (l : Locator) (y : Nat) : Bool :=
  (t.view? y).any l.describes

/-- A live element satisfies the predicate of a locator when the locator describes it. -/
theorem satisfies_eq_shows {p : Predicate} {l : Locator} (h : ∀ e, p.holds e = l.describes e)
    (y : Nat) : t.satisfies p y = t.shows l y := by
  unfold satisfies shows
  cases t.view? y with
  | none => rfl
  | some e => exact h e

/-! ## Queries with conditions -/

/-- A step that keeps or drops elements filters what a query finds. -/
theorem Finds.keep {q : ElementQuery} {ys : List Nat} (h : t.Finds q ys) {s : QueryStep}
    {keep : Nat → Bool} (hs : ∀ y ∈ ys, ∀ z, s.Relates t y z ↔ y = z ∧ keep y = true) :
    t.Finds (q.step s) (ys.filter keep) := by
  obtain ⟨x, hx, hmem⟩ := h.led
  refine ⟨List.filter_sublist.trans h.ordered, x, hx, ?_⟩
  intro z
  rw [ElementQuery.step, leads_append, List.mem_filter]
  constructor
  · rintro ⟨hz, hkeep⟩
    exact ⟨z, (hmem z).mp hz, z, (hs z hz z).mpr ⟨rfl, hkeep⟩, rfl⟩
  · rintro ⟨y, hy, w, hstep, rfl⟩
    obtain ⟨rfl, hkeep⟩ := (hs y ((hmem y).mpr hy) w).mp hstep
    exact ⟨(hmem y).mpr hy, hkeep⟩

/-- A query for the descendants of a type finds them. -/
theorem finds_below (ht : t.WellFormed) {origin : Handle} {x : Nat}
    (hx : t.liveId? origin = some x) (ty : ElementType) :
    t.Finds ((ElementQuery.start origin).step (.descendants ty))
      ((t.descendants x).filter (t.hasType ty)) := by
  have hlisted := ht.mem_documentOrder_of_liveId? hx
  refine ⟨List.filter_sublist.trans (ht.descendants_sublist hlisted), x, hx, ?_⟩
  intro y
  rw [List.mem_filter, ht.mem_descendants hlisted]
  simp [ElementQuery.step, ElementQuery.start, Leads, QueryStep.Relates]

/-- Every live element has a type that the wildcard accepts. -/
theorem WellFormed.hasType_any (ht : t.WellFormed) {y : Nat} (hy : y ∈ t.documentOrder) :
    t.hasType .any y = true := by
  obtain ⟨node, hnode⟩ := ht.mem_documentOrder.mp hy
  simp [hasType, attributes?, hnode, ElementType.accepts, ElementType.isAny]

/-- A query for all descendants finds them. -/
theorem finds_all_below (ht : t.WellFormed) {origin : Handle} {x : Nat}
    (hx : t.liveId? origin = some x) :
    t.Finds ((ElementQuery.start origin).step (.descendants .any)) (t.descendants x) := by
  have hlisted := ht.mem_documentOrder_of_liveId? hx
  have hall : (t.descendants x).filter (t.hasType .any) = t.descendants x := by
    refine List.filter_eq_self.mpr ?_
    intro y hy
    exact ht.hasType_any ((ht.descendants_sublist hlisted).subset hy)
  have hfinds := finds_below ht hx .any
  rwa [hall] at hfinds

/-- A query for the elements below that satisfy a predicate finds them. -/
theorem finds_satisfying (ht : t.WellFormed) {origin : Handle} {x : Nat}
    (hx : t.liveId? origin = some x) (p : Predicate) :
    t.Finds (.satisfyingBelow origin p) ((t.descendants x).filter (t.satisfies p)) :=
  (finds_all_below ht hx).keep fun _ _ _ => Iff.rfl

/-- A query for the elements below with an identifier finds them. -/
theorem finds_identified (ht : t.WellFormed) {origin : Handle} {x : Nat}
    (hx : t.liveId? origin = some x) (identifier : String) :
    t.Finds (.identifiedBelow origin identifier)
      ((t.descendants x).filter fun y =>
        (t.attributes? y).any fun a => decide (a.identifier = identifier)) := by
  refine (finds_all_below ht hx).keep ?_
  intro y _ z
  rw [QueryStep.Relates]
  cases t.attributes? y <;> simp

/-- A query that finds a set is resolved to its members. -/
theorem Finds.resolve_yields {q : ElementQuery} {ys : List Nat} (h : t.Finds q ys)
    (ht : t.WellFormed) (mode : MatchMode) (diagnostics : List Diagnostic) :
    (q.resolve mode diagnostics).Yields t
      (.ok ⟨mode.apply (ys.map Handle.ofNumber), diagnostics⟩) :=
  (Access.Yields.query (h.query_eq ht)).bind (.pure _)

/-! ## Child locators from a live element -/

/-- **A child locator finds what it describes**, below the element that it is resolved from. -/
theorem Reachable.resolve_child (ht : t.Reachable) {e : Handle} {y : Nat}
    (hy : t.liveId? e = some y) {l : Locator} (hl : l.CanDescribe) (options : ResolverOptions)
    (mode : MatchMode) :
    (l.resolve options e mode).Yields t
      (.ok ⟨mode.apply (((t.descendants y).filter (t.shows l)).map Handle.ofNumber), []⟩) := by
  have hwf := ht.wellFormed
  have hsatisfying : ∀ p : Predicate, (∀ v, p.holds v = l.describes v) →
      (ElementQuery.resolve (.satisfyingBelow e p) mode []).Yields t
        (.ok ⟨mode.apply (((t.descendants y).filter (t.shows l)).map Handle.ofNumber), []⟩) := by
    intro p hp
    have hyields := (finds_satisfying hwf hy p).resolve_yields hwf mode []
    rwa [funext (satisfies_eq_shows hp)] at hyields
  have hsingle := hl.single
  rw [Locator.resolve]
  cases hstrategy : l.strategy with
  | name =>
      refine (namedPredicate_yields t l.value).bind (hsatisfying _ ?_)
      intro v
      rw [Predicate.holds_name, Locator.describes, hstrategy]
  | predicate =>
      cases hparse : Predicate.parse l.value with
      | error error =>
          have hreads := hl.readable hstrategy
          rw [hparse] at hreads
          exact absurd hreads (by simp [Except.isOk, Except.toBool])
      | ok p =>
          refine hsatisfying p ?_
          intro v
          simp [Locator.describes, hstrategy, hparse, Except.toOption]
  | id | accessibilityId | identifier =>
      have hyields := (finds_identified hwf hy l.value).resolve_yields hwf mode []
      have hsame : (fun z => (t.attributes? z).any fun a => decide (a.identifier = l.value)) =
          t.shows l := by
        funext z
        simp [shows, view?, Option.any_map, Locator.describes, hstrategy]
      rwa [hsame] at hyields
  | className | classChain | xpath =>
      rw [hstrategy] at hsingle
      exact absurd hsingle (by simp [Strategy.describesSingle])

end LiveTree

end ElementFinder
