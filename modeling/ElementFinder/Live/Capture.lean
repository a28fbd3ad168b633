import ElementFinder.Live.Tree
import ElementFinder.Snapshot.Visibility

/-!
# Capturing a live tree

A capture copies the subtree of a live element into a snapshot, every element before its
children, and keeps the number of the live element behind each node.  Elements are always
seen on the screen of the whole tree.
-/

namespace ElementFinder

/-- A snapshot with the live numbers of its nodes. -/
structure Capture where
  snapshot : Snapshot
  liveIds : List Nat

namespace Capture

/-- Adds a copy of a live element under a node. -/
def push (c : Capture) (parent : Nat) (id : Nat) (a : Attributes) : Capture :=
  ⟨c.snapshot.push parent a, c.liveIds ++ [id]⟩

/-- The node of a live element. -/
def nodeOf? (c : Capture) (id : Nat) : Option Nat :=
  c.liveIds.findIdx? (· = id)

/-- The handles of some nodes. -/
def handles (c : Capture) (ids : List Nat) : List Handle :=
  ids.filterMap fun id => (c.liveIds[id]?).map Handle.ofNumber

end Capture

namespace LiveTree

/-- The screen: the size of the frame of the root. -/
def viewport (t : LiveTree) : Rect :=
  ((t.node? root).map fun node => node.attributes.frame.bounds).getD .zero

/-- Copies a live element and what is below it, down to a depth, under a node. -/
def copyInto (t : LiveTree) : (depth : Nat) → (parent : Nat) → Capture → Nat → Capture
  | 0, _, c, _ => c
  | depth + 1, parent, c, id =>
    match t.node? id with
    | none => c
    | some node =>
      let place := c.snapshot.size
      node.children.foldl (copyInto t depth place) (c.push parent id node.attributes)

/-- Captures the subtree of a live element. -/
def capture? (t : LiveTree) (id : Nat) : Option Capture :=
  (t.node? id).map fun node =>
    node.children.foldl (t.copyInto t.nextId 0)
      ⟨{ Snapshot.ofRoot node.attributes with viewport := t.viewport }, [id]⟩

/-- A snapshot of the element that a handle names. -/
def snapshot (t : LiveTree) (h : Handle) : Except LiveFault Snapshot :=
  match (t.liveId? h).bind t.capture? with
  | some c => .ok c.snapshot
  | none => .error (.stale h)

end LiveTree

end ElementFinder
