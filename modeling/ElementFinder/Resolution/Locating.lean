import ElementFinder.Chain.Reading
import ElementFinder.Chain.Walk
import ElementFinder.Resolution.Reconciliation
import ElementFinder.XPath.Matching

/-!
# Resolving locators

Every strategy looks below a live root.  Most of them are one live query; class chains are
walked along; path expressions are evaluated on a snapshot, and the matches are found again
among the live elements.  An expression that cannot be read matches nothing and is reported,
and an unknown type counts as the wildcard.
-/

namespace ElementFinder

namespace ElementQuery

/-- All elements below a root that satisfy a predicate. -/
def satisfyingBelow (root : Handle) (p : Predicate) : ElementQuery :=
  ((start root).step (.descendants .any)).step (.satisfying p)

/-- All elements below a root that have an identifier. -/
def identifiedBelow (root : Handle) (identifier : String) : ElementQuery :=
  ((start root).step (.descendants .any)).step (.identified identifier)

end ElementQuery

/-- The predicate that asks for a name. -/
def namedPredicate (name : String) : Access Predicate :=
  match Predicate.equals "name" name with
  | .ok p => return p
  | .error e => throw (.broken e.message)

/-- The type of a name, with the problem that the name is unknown. -/
def ElementType.orWildcard (name : String) : ElementType × List Diagnostic :=
  match ElementType.lookup name with
  | .ok t => (t, [])
  | .error e => (.any, [.invalidTypeName e.name])

/-- Runs a query and keeps the wanted part of what it finds. -/
def ElementQuery.resolve (q : ElementQuery) (mode : MatchMode) (diagnostics : List Diagnostic) :
    Access Resolution := do
  return ⟨mode.apply (← Access.query q), diagnostics⟩

/-- The matched index paths of an expression, with their nodes. -/
def Markup.matching (m : Markup) (expression : String) :
    Except XPath.SelectionFault (List (String × Nat)) :=
  (m.document.matching expression).map fun ids => ids.filterMap fun id => m.places[id]?

/-- The elements that a path expression matches. -/
def resolveXPath (options : ResolverOptions) (expression : String) (root : Handle)
    (mode : MatchMode) : Access Resolution := do
  let snapshot ← Access.snapshot root
  match (snapshot.markup options.indexPathRoot).matching expression with
  | .error e => return .ofProblem (.invalidXPath expression e.reason)
  | .ok matched =>
    let reverse := options.reverseOnLast && XPath.usesLast expression
    Reconciliation.run ⟨mode.apply matched, snapshot, root, reverse⟩ options

/-- The elements that a locator leads to below a live root. -/
def Locator.resolve (options : ResolverOptions) (l : Locator) (root : Handle)
    (mode : MatchMode) : Access Resolution :=
  match l.strategy with
  | .id => (ElementQuery.identifiedBelow root l.value).resolve mode []
  | .accessibilityId => (ElementQuery.identifiedBelow root l.value).resolve mode []
  | .identifier => (ElementQuery.identifiedBelow root l.value).resolve mode []
  | .name => do (ElementQuery.satisfyingBelow root (← namedPredicate l.value)).resolve mode []
  | .className =>
    let (t, diagnostics) := ElementType.orWildcard l.value
    ((ElementQuery.start root).step (.descendants t)).resolve mode diagnostics
  | .predicate =>
    match Predicate.parse l.value with
    | .ok p => (ElementQuery.satisfyingBelow root p).resolve mode []
    | .error e => return .ofProblem (.invalidPredicate l.value e.message)
  | .classChain => do
    let parsed := ParsedChain.ofText l.value
    return ⟨← parsed.chain.resolve root mode, parsed.diagnostics⟩
  | .xpath => resolveXPath options l.value root mode

end ElementFinder
