import ElementFinder.Predicate.Evaluation
import ElementFinder.Snapshot.Basic

/-!
# Visible and accessible nodes

A node is visible when it has an area of which some part lies on the screen.  It is
accessible when it is offered to assistive clients as one whole: it is flagged so, or is of
a type that always is, and no ancestor other than a table is flagged before it.
-/

namespace ElementFinder.Snapshot

/-- Whether a node has a part on the screen. -/
def isVisible (s : Snapshot) (id : Nat) : Bool :=
  match s.attributes? id with
  | none => false
  | some a => !a.frame.isEmpty && !a.shownFrame.isEmpty && a.shownFrame.intersects s.viewport

/-- Whether the first child of a node is flagged as accessible. -/
def firstChildFlagged (s : Snapshot) (node : SnapshotNode) : Bool :=
  match node.children.head?.bind s.attributes? with
  | some a => a.accessible
  | none => false

/-- Whether a node offers itself: a cell by its own flag or that of its first child, a text
field always, any other element by its own flag. -/
def offersItself (s : Snapshot) (node : SnapshotNode) : Bool :=
  if node.attributes.elementType = .cell then
    node.attributes.accessible || s.firstChildFlagged node
  else
    node.attributes.elementType = .textField ||
      node.attributes.elementType = .secureTextField || node.attributes.accessible

/-- Whether a node hides the nodes below it from assistive clients. -/
def shields (s : Snapshot) (id : Nat) : Bool :=
  match s.attributes? id with
  | some a => a.accessible && a.elementType != .table
  | none => false

/-- Whether a node is offered to assistive clients. -/
def isAccessible (s : Snapshot) (id : Nat) : Bool :=
  match s.node? id with
  | none => false
  | some node => s.offersItself node && !(s.ancestors id).any s.shields

/-- A node as predicates see it. -/
def view? (s : Snapshot) (id : Nat) : Option ElementView :=
  (s.attributes? id).map fun a => ⟨a, s.isVisible id, s.isAccessible id⟩

/-- Whether a predicate holds of a node. -/
def satisfies (s : Snapshot) (p : Predicate) (id : Nat) : Bool :=
  match s.view? id with
  | some e => p.holds e
  | none => false

/-- Whether a node has a type that another type accepts. -/
def hasType (s : Snapshot) (t : ElementType) (id : Nat) : Bool :=
  match s.attributes? id with
  | some a => t.accepts a.elementType
  | none => false

end ElementFinder.Snapshot
