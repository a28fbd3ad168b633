import ElementFinder.Attributes.Basic

/-!
# Snapshots

A snapshot is a copy of a tree of elements at one moment.  Its nodes stand in one array and
refer to each other by their places in it; node 0 is the root.  Children may be added under
any node at any time, so the order of the array is an order of creation, and the document
order is found by walking down the children.

The walks are bounded by the number of nodes.  In every snapshot a parent stands before its
children, so no path is longer than that.
-/

namespace ElementFinder

/-- One node: its parent, its children in order and its attributes. -/
structure SnapshotNode where
  parent : Option Nat
  children : List Nat
  attributes : Attributes
deriving Inhabited

/-- A tree of nodes, and the part of the screen on which they are seen. -/
structure Snapshot where
  nodes : Array SnapshotNode
  viewport : Rect
deriving Inhabited

namespace Snapshot

/-- A snapshot of one element, whose frame gives the size of the screen. -/
def ofRoot (root : Attributes) : Snapshot :=
  ⟨#[⟨none, [], root⟩], root.frame.bounds⟩

/-- The number of nodes. -/
def size (s : Snapshot) : Nat :=
  s.nodes.size

/-- The node at a place. -/
def node? (s : Snapshot) (id : Nat) : Option SnapshotNode :=
  s.nodes[id]?

/-- The attributes of the node at a place. -/
def attributes? (s : Snapshot) (id : Nat) : Option Attributes :=
  (s.node? id).map SnapshotNode.attributes

/-- The node under which a child is put: the given one, or the root if there is no such
node. -/
def holder (s : Snapshot) (parent : Nat) : Nat :=
  if parent < s.size then parent else 0

/-- Adds a node as the last child of another. -/
def push (s : Snapshot) (parent : Nat) (a : Attributes) : Snapshot :=
  { s with
    nodes := (s.nodes.modify (s.holder parent) fun node =>
      { node with children := node.children ++ [s.size] }).push ⟨some (s.holder parent), [], a⟩ }

/-- The children of a node. -/
def children (s : Snapshot) (id : Nat) : List Nat :=
  ((s.node? id).map SnapshotNode.children).getD []

/-- The parent of a node. -/
def parent? (s : Snapshot) (id : Nat) : Option Nat :=
  (s.node? id).bind SnapshotNode.parent

/-- The nodes met on the way up, at most as many as the bound. -/
def ancestorsWithin (s : Snapshot) : (bound : Nat) → Nat → List Nat
  | 0, _ => []
  | bound + 1, id =>
    match s.parent? id with
    | none => []
    | some parent => parent :: ancestorsWithin s bound parent

/-- The ancestors of a node, the nearest first. -/
def ancestors (s : Snapshot) (id : Nat) : List Nat :=
  s.ancestorsWithin s.size id

/-- The nodes met on the way down to a depth, each before its children. -/
def subtreeWithin (s : Snapshot) : (depth : Nat) → Nat → List Nat
  | 0, _ => []
  | depth + 1, id =>
    match s.node? id with
    | none => []
    | some node => id :: node.children.flatMap (subtreeWithin s depth)

/-- The nodes of the subtree under a node in document order, the node itself first. -/
def subtree (s : Snapshot) (id : Nat) : List Nat :=
  s.subtreeWithin s.size id

/-- The proper descendants of a node in document order. -/
def descendants (s : Snapshot) (id : Nat) : List Nat :=
  (s.subtree id).drop 1

/-- All nodes in document order. -/
def documentOrder (s : Snapshot) : List Nat :=
  s.subtree 0

/-- Equality of all nodes and the viewport; numbers compare as numbers. -/
def eqv (s t : Snapshot) : Bool :=
  s.nodes.size = t.nodes.size && s.viewport.eqv t.viewport &&
    (s.nodes.toList.zip t.nodes.toList).all fun (a, b) =>
      a.parent = b.parent && a.children = b.children && a.attributes.eqv b.attributes

end Snapshot

end ElementFinder
