import ElementFinder.Snapshot.Visibility
import ElementFinder.XPath.Document

/-!
# Snapshots as XML

A snapshot is shown as an XML element named by its type, with the elements of its children
inside it.  Every element carries its index path: the path of its parent, a comma, and its
place among its siblings.  No two nodes have the same path, so a path found in the document
leads back to its node.
-/

namespace ElementFinder

/-- The XML form of a snapshot, and the index paths of its elements with the nodes that they
show, in document order. -/
structure Markup where
  top : XmlElement
  places : List (String × Nat)

namespace Markup

/-- The name of the attribute that holds the index path. -/
def pathKey : String := "private_indexPath"

/-- The index path of a child. -/
def childPath (path : String) (place : Nat) : String :=
  path ++ "," ++ toString place

/-- The name of an element of some type; unregistered types have the name of other
elements. -/
def typeName (t : ElementType) : String :=
  if t.isRegistered then t.name else ElementType.other.name

/-- The text of a truth value. -/
def truthText (b : Bool) : String :=
  if b then "true" else "false"

end Markup

namespace Snapshot

/-- The name of the element of a node. -/
def markupName (s : Snapshot) (id : Nat) : String :=
  Markup.typeName (((s.attributes? id).map Attributes.elementType).getD .other)

/-- The attributes of the element of a node other than its index path. -/
def shownAttributes (s : Snapshot) (id : Nat) : List (String × String) :=
  match s.attributes? id with
  | none => []
  | some a =>
    [("type", s.markupName id)] ++
    (a.derivedValue?.map fun v => ("value", v.display)).toList ++
    (a.derivedName?.map fun name => ("name", name)).toList ++
    [("label", a.label),
     ("enabled", Markup.truthText a.enabled),
     ("visible", Markup.truthText (s.isVisible id)),
     ("accessible", Markup.truthText (s.isAccessible id)),
     ("x", a.frame.x.scalarText),
     ("y", a.frame.y.scalarText),
     ("width", a.frame.width.scalarText),
     ("height", a.frame.height.scalarText)]

/-- The attributes of the element of a node. -/
def markupAttributes (s : Snapshot) (path : String) (id : Nat) : List (String × String) :=
  s.shownAttributes id ++ [(Markup.pathKey, path)]

/-- The element of a node, with elements inside it down to a depth. -/
def elementWithin (s : Snapshot) : (depth : Nat) → (path : String) → Nat → XmlElement
  | 0, path, id => .mk (s.markupName id) (s.markupAttributes path id) []
  | depth + 1, path, id =>
    .mk (s.markupName id) (s.markupAttributes path id)
      ((s.children id).zipIdx.map fun (child, place) =>
        elementWithin s depth (Markup.childPath path place) child)

/-- The index paths of a node and of the nodes below it down to a depth. -/
def placesWithin (s : Snapshot) : (depth : Nat) → (path : String) → Nat → List (String × Nat)
  | 0, path, id => [(path, id)]
  | depth + 1, path, id =>
    (path, id) :: (s.children id).zipIdx.flatMap fun (child, place) =>
      placesWithin s depth (Markup.childPath path place) child

/-- The XML form of a snapshot whose root has the given index path. -/
def markup (s : Snapshot) (rootPath : String) : Markup :=
  ⟨s.elementWithin s.size rootPath 0, s.placesWithin s.size rootPath 0⟩

end Snapshot

namespace Markup

/-- The index paths in document order. -/
def paths (m : Markup) : List String :=
  m.places.map Prod.fst

/-- The node that an index path leads to. -/
def node? (m : Markup) (path : String) : Option Nat :=
  (m.places.find? fun place => place.1 = path).map Prod.snd

/-- The document that paths are evaluated on. -/
def document (m : Markup) : XPath.Document :=
  .ofElement m.top

end Markup

end ElementFinder
