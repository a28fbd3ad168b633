import ElementFinder.Snapshot.Visibility

/-!
# Page sources

The page source of a snapshot shows its visible elements, nested as they are.  What lies
below an invisible element is not shown.
-/

namespace ElementFinder

/-- What a page source tells about one element. -/
structure PageElement where
  elementType : String
  identifier : String
  name : String
  value : String
  label : String
  rect : Rect
  frame : String
  enabled : Bool
deriving DecidableEq

/-- An element of a page source with the elements shown below it. -/
inductive PageNode where
  | mk (element : PageElement) (children : List PageNode)

namespace PageNode

/-- The element of a node. -/
def element : PageNode → PageElement
  | mk e _ => e

/-- The nodes shown below a node. -/
def children : PageNode → List PageNode
  | mk _ cs => cs

mutual

/-- The number of nodes. -/
def count : PageNode → Nat
  | mk _ cs => 1 + countAll cs

/-- The number of nodes in all. -/
def countAll : List PageNode → Nat
  | [] => 0
  | n :: rest => count n + countAll rest

end

end PageNode

/-- What a page source tells about an element with given attributes. -/
def PageElement.ofAttributes (a : Attributes) : PageElement where
  elementType := a.elementType.shortName
  identifier := a.identifier
  name := a.derivedName?.getD ""
  value := a.valueText
  label := a.label
  rect := a.frame.integral
  frame := a.frame.frameText
  enabled := a.enabled

namespace Snapshot

/-- The page source below a node, to a depth. -/
def pageWithin (s : Snapshot) : (depth : Nat) → Nat → Option PageNode
  | 0, _ => none
  | depth + 1, id =>
    if s.isVisible id then
      match s.node? id with
      | none => none
      | some node =>
        some (.mk (.ofAttributes node.attributes) (node.children.filterMap (pageWithin s depth)))
    else none

/-- The page source of a snapshot; there is none when the root is invisible. -/
def pageSource? (s : Snapshot) : Option PageNode :=
  s.pageWithin s.size 0

end Snapshot

end ElementFinder
