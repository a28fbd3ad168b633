import ElementFinder.Chain.Basic
import ElementFinder.Live.Access
import ElementFinder.Locator.Basic

/-!
# Walking along class chains

A chain is turned into live queries.  Markers for any number of levels make the next step a
step to all levels; markers at the end stand for a step of their own.  A position picks one
element at once, and the rest of the chain starts from it.
-/

namespace ElementFinder

/-- A step of a chain without markers: whether it goes down all levels or one, and what it
selects there. -/
structure ChainMove where
  descends : Bool
  elementType : ElementType
  predicate : Option Predicate
  position : Option Int

/-- Where a chain leads: to one element that a position picked, or to all that a query
finds. -/
inductive ChainTarget where
  | element (element : Handle)
  | query (query : ElementQuery)

namespace Chain

/-- The steps of a chain with the markers before each put into it. -/
def moves : (descends : Bool) → Chain → List ChainMove
  | true, [] => [⟨true, .any, none, none⟩]
  | false, [] => []
  | _, .anyDepth :: rest => moves true rest
  | descends, .select t p i :: rest => ⟨descends, t, p, i⟩ :: moves false rest

end Chain

namespace ChainMove

/-- The query steps of a step without its position. -/
def querySteps (m : ChainMove) : List QueryStep :=
  (if m.descends then .descendants m.elementType else .children m.elementType) ::
    (m.predicate.map QueryStep.satisfying).toList

/-- The query with a step after it. -/
def extend (m : ChainMove) (q : ElementQuery) : ElementQuery :=
  m.querySteps.foldl ElementQuery.step q

end ChainMove

/-- The element at a position: counted from one, or from the end when negative. -/
def pick? (found : List Handle) (position : Int) : Option Handle :=
  if 0 < position then found[(position - 1).toNat]?
  else if position < 0 && 0 ≤ found.length + position then found[(found.length + position).toNat]?
  else none

namespace Chain

/-- Takes steps after a query. -/
def walkFrom (q : ElementQuery) : List ChainMove → Access ChainTarget
  | [] => return .query q
  | m :: rest =>
    match m.position with
    | none => walkFrom (m.extend q) rest
    | some position => do
      let found ← Access.query (m.extend q)
      match pick? found position with
      | none => throw (.invalidPosition position found.length)
      | some h => if rest.isEmpty then return .element h else walkFrom (.start h) rest

/-- Walks along a chain from an element. -/
def walk (c : Chain) (root : Handle) : Access ChainTarget :=
  if c.isEmpty then throw (.emptyChain c.display)
  else walkFrom (.start root) (moves false c)

/-- The query for what a chain leads to; a picked element stands for its children. -/
def queryFor (c : Chain) (root : Handle) : Access ElementQuery := do
  match ← c.walk root with
  | .element h => return (ElementQuery.start h).step (.children .any)
  | .query q => return q

/-- The elements that a chain leads to. -/
def resolve (c : Chain) (root : Handle) (mode : MatchMode) : Access (List Handle) := do
  match ← c.walk root with
  | .element h => return [h]
  | .query q => return mode.apply (← Access.query q)

end Chain

end ElementFinder
