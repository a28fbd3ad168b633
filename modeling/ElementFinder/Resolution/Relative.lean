import ElementFinder.Resolution.Locating

/-!
# Relatives of an element

A child locator describes one element by its identifier, its name or a predicate.  A parent
is an element that another locator finds and that has such an element below it.  A sibling
is found from the second ancestor of the first such element, so that elements nearby in the
layout count as siblings.
-/

namespace ElementFinder

/-- How many levels above a child the search for siblings starts. -/
def siblingDepth : Nat := 2

/-- The failure of a locator that cannot describe one element. -/
def Locator.unsupported (l : Locator) : LocatorError :=
  .unsupportedRelative l.display
    ("'" ++ l.strategy.title ++
      "' cannot describe a child; use an identifier, name or predicate locator")

/-- The predicate that a child locator asks for, or the problem that it cannot be read. -/
def Locator.childPredicate (l : Locator) : Except Diagnostic Predicate :=
  let read :=
    match l.strategy with
    | .name => Predicate.equals "name" l.value
    | .predicate => Predicate.parse l.value
    | _ => Predicate.equals "identifier" l.value
  read.mapError fun e => .invalidPredicate l.value e.message

/-- Whether an element has an element below it that satisfies a predicate. -/
def hasBelow (h : Handle) (p : Predicate) : Access Bool := do
  return !(← Access.query (.satisfyingBelow h p)).isEmpty

/-- The elements of a list with an element below them that satisfies a predicate. -/
def keepHaving (p : Predicate) : List Handle → Access (List Handle)
  | [] => return []
  | h :: rest => do
    if ← hasBelow h p then return h :: (← keepHaving p rest) else keepHaving p rest

/-- Extends a query to the elements with one below them that satisfies a predicate. -/
def ElementQuery.resolveHaving (q : ElementQuery) (p : Predicate) (mode : MatchMode)
    (diagnostics : List Diagnostic) : Access Resolution :=
  (q.step (.containing .any p)).resolve mode diagnostics

/-- The elements that a parent locator finds with an element below them that satisfies a
predicate. -/
def parentsHaving (options : ResolverOptions) (parent : Locator) (p : Predicate)
    (root : Handle) (mode : MatchMode) : Access Resolution :=
  match parent.strategy with
  | .id => (ElementQuery.identifiedBelow root parent.value).resolveHaving p mode []
  | .accessibilityId => (ElementQuery.identifiedBelow root parent.value).resolveHaving p mode []
  | .identifier => (ElementQuery.identifiedBelow root parent.value).resolveHaving p mode []
  | .name => do
    (ElementQuery.satisfyingBelow root (← namedPredicate parent.value)).resolveHaving p mode []
  | .className =>
    let (t, diagnostics) := ElementType.orWildcard parent.value
    ((ElementQuery.start root).step (.descendants t)).resolveHaving p mode diagnostics
  | .predicate =>
    match Predicate.parse parent.value with
    | .ok q => (ElementQuery.satisfyingBelow root q).resolveHaving p mode []
    | .error e => return .ofProblem (.invalidPredicate parent.value e.message)
  | .classChain => do
    let parsed := ParsedChain.ofText parent.value
    match ← parsed.chain.walk root with
    | .query q => q.resolveHaving p mode parsed.diagnostics
    | .element h => return ⟨← keepHaving p [h], parsed.diagnostics⟩
  | .xpath => do
    let candidates ← parent.resolve options root .all
    return ⟨mode.apply (← keepHaving p candidates.elements), candidates.diagnostics⟩

/-- The elements that a parent locator finds and that have an element below them that a
child locator describes. -/
def findParent (options : ResolverOptions) (parent child : Locator) (root : Handle)
    (mode : MatchMode) : Access Resolution :=
  if !child.strategy.describesSingle then throw child.unsupported
  else
    match child.childPredicate with
    | .error d => return .ofProblem d
    | .ok p => parentsHaving options parent p root mode

/-- The first node below the root of a snapshot that satisfies a predicate. -/
def Snapshot.firstBelow? (s : Snapshot) (p : Predicate) : Option Nat :=
  (s.descendants 0).find? (s.satisfies p)

/-- The node from which siblings of a node are sought. -/
def Snapshot.siblingAnchor (s : Snapshot) (id : Nat) : Nat :=
  ((s.ancestors id)[siblingDepth - 1]?).getD 0

/-- The live element of one node of a snapshot, or the resolution that says that there is
none. -/
def liveElement (options : ResolverOptions) (s : Snapshot) (id : Nat) (root : Handle) :
    Access (Except Resolution Handle) :=
  if id = 0 then return .ok root
  else do
    let places := (s.markup options.indexPathRoot).places.filter fun place => place.2 = id
    let resolution ← Reconciliation.run ⟨places.take 1, s, root, false⟩ options
    match resolution.elements.getLast? with
    | some h => return .ok h
    | none => return .error resolution

/-- The elements that a sibling locator finds near the first element that a child locator
describes. -/
def findSibling (options : ResolverOptions) (child sibling : Locator) (root : Handle)
    (mode : MatchMode) : Access Resolution :=
  if !child.strategy.describesSingle then throw child.unsupported
  else
    match child.childPredicate with
    | .error d => return .ofProblem d
    | .ok p => do
      let s ← Access.snapshot root
      match s.firstBelow? p with
      | none => return {}
      | some id =>
        match ← liveElement options s (s.siblingAnchor id) root with
        | .error resolution => return resolution
        | .ok anchor => sibling.resolve options anchor mode

end ElementFinder
