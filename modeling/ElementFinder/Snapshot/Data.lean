import ElementFinder.Attributes.Data
import ElementFinder.Snapshot.AccessibilityTree
import ElementFinder.Snapshot.PageSource

/-!
# Snapshots as data

A snapshot is written with every node, its place and its links.  Reading checks the links:
a node carries its own place, only the first has no parent, parents stand before their
children, and a listed child names its parent.
-/

namespace ElementFinder

/-- Why nodes do not form a snapshot. -/
inductive SnapshotFault where
  | empty
  | misplacedNode (index id : Nat)
  | invalidParent (node : Nat)
  | invalidChild (node child : Nat)
deriving DecidableEq, Repr

/-- The sentence that reports a fault. -/
def SnapshotFault.message : SnapshotFault → String
  | empty => "snapshot has no root node"
  | misplacedNode index id =>
    "node at index " ++ toString index ++ " carries id " ++ toString id
  | invalidParent node => "node " ++ toString node ++ " has an invalid parent link"
  | invalidChild node child =>
    "node " ++ toString node ++ " lists " ++ toString child ++
      " as a child but is not its parent"

/-- A node as it is written, with the place it claims. -/
structure NodeRecord where
  id : Nat
  node : SnapshotNode

namespace NodeRecord

/-- Whether a parent link is allowed at a place. -/
def parentAllowed (index : Nat) : Option Nat → Bool
  | none => index = 0
  | some parent => parent < index

/-- The first fault of a node at a place, if there is one. -/
def fault? (records : Array NodeRecord) (index : Nat) (r : NodeRecord) : Option SnapshotFault :=
  if r.id != index then some (.misplacedNode index r.id)
  else if !parentAllowed index r.node.parent then some (.invalidParent index)
  else
    (r.node.children.find? fun child =>
      (records[child]?.bind fun c => c.node.parent) != some index).map (.invalidChild index)

/-- The first fault from a place on. -/
def faultFrom? (records : Array NodeRecord) : (index : Nat) → List NodeRecord →
    Option SnapshotFault
  | _, [] => none
  | index, r :: rest => (fault? records index r).or (faultFrom? records (index + 1) rest)

end NodeRecord

namespace Snapshot

/-- The snapshot of written nodes, or their first fault. -/
def ofRecords (records : List NodeRecord) (viewport : Rect) : Except SnapshotFault Snapshot :=
  if records.isEmpty then .error .empty
  else
    match NodeRecord.faultFrom? records.toArray 0 records with
    | some fault => .error fault
    | none => .ok ⟨(records.map NodeRecord.node).toArray, viewport⟩

/-- The nodes of a snapshot as they are written. -/
def records (s : Snapshot) : List NodeRecord :=
  s.nodes.toList.zipIdx.map fun (node, id) => ⟨id, node⟩

end Snapshot

namespace NodeRecord

/-- The fields of a node while it is being read. -/
structure Draft where
  id : Option Nat := none
  parent : Option Nat := none
  children : Option (List Nat) := none
  attributes : Option Attributes := none

/-- Reads one field of a node. -/
def readField (n : Draft) (key : String) (d : Data) : Reader Draft :=
  match key with
  | "id" => return { n with id := some (← d.readNat) }
  | "parent" => return { n with parent := ← d.readOption Data.readNat }
  | "children" => return { n with children := some (← d.readList Data.readNat) }
  | _ => return { n with attributes := some (← Attributes.ofData d) }

/-- Reads a node; only the parent may be missing. -/
def ofData (d : Data) : Reader NodeRecord := do
  let n ← d.readFields ["id", "parent", "children", "attributes"] readField {}
  match n.id, n.children, n.attributes with
  | some id, some children, some attributes => return ⟨id, ⟨n.parent, children, attributes⟩⟩
  | _, _, _ => throw .shape

/-- A node as a record. -/
def toData (r : NodeRecord) : Data :=
  .object [("id", .int r.id),
    ("parent", (r.node.parent.map fun p : Nat => Data.int p).getD .null),
    ("children", .list (r.node.children.map fun c : Nat => Data.int c)),
    ("attributes", r.node.attributes.toData)]

end NodeRecord

namespace Snapshot

/-- Reads the nodes or the viewport of a snapshot. -/
def readField (parts : Option (List NodeRecord) × Option Rect) (key : String) (d : Data) :
    Reader (Option (List NodeRecord) × Option Rect) :=
  match key with
  | "nodes" => return (some (← d.readList NodeRecord.ofData), parts.2)
  | _ => return (parts.1, some (← Rect.ofData d))

/-- Reads a snapshot and checks its links. -/
def ofData (d : Data) : Reader Snapshot := do
  match ← d.readFields ["nodes", "viewport"] readField (none, none) with
  | (some records, some viewport) =>
    (ofRecords records viewport).mapError fun fault => .rule fault.message
  | _ => throw .shape

/-- A snapshot as a record of its nodes and its viewport. -/
def toData (s : Snapshot) : Data :=
  .object [("nodes", .list (s.records.map NodeRecord.toData)), ("viewport", s.viewport.toData)]

end Snapshot

namespace PageNode

mutual

/-- A page source as nested records; an empty list of children is left out. -/
def toData : PageNode → Data
  | mk e children =>
    .object ([("type", .text e.elementType), ("rawIdentifier", .text e.identifier),
      ("name", .text e.name), ("value", .text e.value), ("label", .text e.label),
      ("rect", e.rect.toData), ("frame", .text e.frame), ("isEnabled", .bool e.enabled),
      ("isVisible", .bool true)] ++
      (if children.isEmpty then [] else [("children", Data.list (allToData children))]))

/-- `toData` of each node. -/
def allToData : List PageNode → List Data
  | [] => []
  | n :: rest => toData n :: allToData rest

end

end PageNode

namespace AccessibilityNode

mutual

/-- An accessibility tree as nested records; what is missing or empty is left out. -/
def toData : AccessibilityNode → Data
  | leaf value label => .object [("value", .text value), ("label", .text label)]
  | group children =>
    .object (if children.isEmpty then [] else [("children", Data.list (allToData children))])

/-- `toData` of each node. -/
def allToData : List AccessibilityNode → List Data
  | [] => []
  | n :: rest => toData n :: allToData rest

end

end AccessibilityNode

end ElementFinder
