import ElementFinder.Snapshot.Visibility

/-!
# Accessibility trees

What assistive clients are offered: accessible visible elements as leaves, under groups for
the other elements above them.  Groups without any leaf are left out, except at the root.
-/

namespace ElementFinder

/-- A leaf with the value and label of an element, or a group. -/
inductive AccessibilityNode where
  | leaf (value label : String)
  | group (children : List AccessibilityNode)

namespace AccessibilityNode

/-- Whether a node is a group of nothing. -/
def isEmpty : AccessibilityNode → Bool
  | group [] => true
  | _ => false

end AccessibilityNode

namespace Snapshot

/-- The accessibility tree below a node, to a depth. -/
def accessibilityWithin (s : Snapshot) : (depth : Nat) → Nat → AccessibilityNode
  | 0, _ => .group []
  | depth + 1, id =>
    match s.node? id with
    | none => .group []
    | some node =>
      if s.isAccessible id then
        if s.isVisible id then .leaf node.attributes.valueText node.attributes.label
        else .group []
      else
        .group ((node.children.map (accessibilityWithin s depth)).filter fun n => !n.isEmpty)

/-- The accessibility tree of a snapshot. -/
def accessibilityTree (s : Snapshot) : AccessibilityNode :=
  s.accessibilityWithin s.size 0

end Snapshot

end ElementFinder
