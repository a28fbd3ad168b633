import ElementFinder.Live.Query
import ElementFinder.Locator.Error

/-!
# Access to a tree that changes

A resolution looks at a live tree several times, and the tree may change between the looks.
The changes are given by an interference: a function that names the changes made after each
look, from the looks so far.  Without interference the tree stays as it is.
-/

namespace ElementFinder

/-- A look at the tree. -/
inductive Glance where
  | snapshot
  | query
deriving DecidableEq, Repr

/-- The changes that are made after a look; the last look stands first. -/
abbrev Interference := List Glance → List Mutation

/-- A live tree while it is being looked at. -/
structure World where
  tree : LiveTree
  looks : List Glance
  interference : Interference

/-- Computations that look at a live tree and may fail. -/
abbrev Access := ExceptT LocatorError (StateM World)

/-- The failure that a fault of the tree is reported as. -/
def LiveFault.toTreeError : LiveFault → TreeError
  | stale h => .staleElement h.text
  | rootRemoval => .broken "cannot remove the root element"
  | rootless => .broken "tree has no root"

namespace World

/-- A tree that nothing interferes with. -/
def still (t : LiveTree) : World :=
  ⟨t, [], fun _ => []⟩

/-- What happens after a look: the look is recorded and the changes due are made as far as
they can be. -/
def afterLook (w : World) (k : Glance) : World :=
  let looks := k :: w.looks
  { w with tree := (w.interference looks).foldl LiveTree.tryApply w.tree, looks := looks }

end World

namespace Access

/-- Looks at the tree. -/
def look {α : Type} (k : Glance) (f : LiveTree → Except LiveFault α) : Access α :=
  ExceptT.mk fun w =>
    ((f w.tree).mapError fun e => LocatorError.tree e.toTreeError, w.afterLook k)

/-- Takes a snapshot of an element. -/
def snapshot (h : Handle) : Access Snapshot :=
  look .snapshot fun t => t.snapshot h

/-- Runs a query. -/
def query (q : ElementQuery) : Access (List Handle) :=
  look .query fun t => t.query q

/-- The attributes of an element, or nothing if it is stale. -/
def attributes? (h : Handle) : Access (Option Attributes) :=
  ExceptT.mk fun w =>
    (.ok (match w.tree.snapshot h with
      | .ok s => s.attributes? 0
      | .error _ => none), w.afterLook .snapshot)

/-- Runs a computation on a tree that nothing interferes with. -/
def runStill {α : Type} (x : Access α) (t : LiveTree) : Except LocatorError α :=
  (x.run (World.still t)).1

end Access

end ElementFinder
