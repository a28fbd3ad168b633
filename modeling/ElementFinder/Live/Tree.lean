import ElementFinder.Fixture

/-!
# Live trees

A live tree changes over time.  Its elements have numbers that are given out in order and
never again, so a handle to a removed element stays stale for good.  The tree keeps one cell
for every number given out: the element with its links, or nothing once it is removed.
-/

namespace ElementFinder

/-- An element of a live tree: its attributes and its links. -/
structure LiveNode where
  attributes : Attributes
  parent : Option Nat
  children : List Nat
deriving Inhabited

/-- A live tree: a cell for every number given out so far.  The root is number 0. -/
structure LiveTree where
  cells : Array (Option LiveNode)

/-- A reference to an element, as it is written. -/
structure Handle where
  text : String
deriving DecidableEq, Repr, Inhabited

namespace Handle

/-- The beginning of all handles. -/
def stem : List Char := "node-".toList

/-- The handle of a number. -/
def ofNumber (id : Nat) : Handle :=
  ⟨String.ofList (stem ++ (toString id).toList)⟩

/-- The number of a handle: digits below `2 ^ 64`, which a plus sign may precede. -/
def number? (h : Handle) : Option Nat :=
  let cs := h.text.toList
  if stem.isPrefixOf cs then
    let digits := match cs.drop stem.length with
      | '+' :: rest => rest
      | rest => rest
    (natOfDigits? digits).filter fun n => n < Nat.pow 2 64
  else none

end Handle

/-- A change to a live tree. -/
inductive Mutation where
  | append (parent : Handle) (child : Fixture)
  | remove (element : Handle)
  | update (element : Handle) (attributes : Attributes → Attributes)

/-- Why a live tree makes no change or gives no answer. -/
inductive LiveFault where
  | stale (element : Handle)
  | rootRemoval
  | rootless
deriving DecidableEq, Repr

namespace LiveTree

/-- The number of the root. -/
def root : Nat := 0

/-- The element with a number, if it is live. -/
def node? (t : LiveTree) (id : Nat) : Option LiveNode :=
  (t.cells[id]?).join

/-- The number that the next element gets. -/
def nextId (t : LiveTree) : Nat :=
  t.cells.size

/-- The number of live elements. -/
def size (t : LiveTree) : Nat :=
  (t.cells.toList.filter Option.isSome).length

/-- The number that a handle names, if the element is live. -/
def liveId? (t : LiveTree) (h : Handle) : Option Nat :=
  h.number?.filter fun id => (t.node? id).isSome

/-- Changes the element with a number. -/
def modify (t : LiveTree) (id : Nat) (f : LiveNode → LiveNode) : LiveTree :=
  ⟨t.cells.modify id fun cell => cell.map f⟩

/-- Adds an element as the last child of its parent. -/
def insert (t : LiveTree) (parent : Option Nat) (a : Attributes) : LiveTree :=
  let id := t.nextId
  let linked : LiveTree :=
    match parent with
    | some p => t.modify p fun node => { node with children := node.children ++ [id] }
    | none => t
  ⟨linked.cells.push (some ⟨a, parent, []⟩)⟩

mutual

/-- Adds a fixture, every node before its children. -/
def insertFixture (t : LiveTree) (parent : Option Nat) : Fixture → LiveTree
  | .mk a children => insertAll (t.insert parent a) t.nextId children

/-- Adds fixtures one after the other under a parent. -/
def insertAll (t : LiveTree) (parent : Nat) : List Fixture → LiveTree
  | [] => t
  | f :: rest => insertAll (insertFixture t (some parent) f) parent rest

end

/-- The live tree of a fixture. -/
def ofFixture (f : Fixture) : LiveTree :=
  insertFixture ⟨#[]⟩ none f

/-- The elements of a subtree down to a depth, each before its children. -/
def subtreeWithin (t : LiveTree) : (depth : Nat) → Nat → List Nat
  | 0, _ => []
  | depth + 1, id =>
    match t.node? id with
    | none => []
    | some node => id :: node.children.flatMap (subtreeWithin t depth)

/-- The elements of the subtree of an element in document order, the element first. -/
def subtree (t : LiveTree) (id : Nat) : List Nat :=
  t.subtreeWithin t.nextId id

/-- Adds a fixture as the last child of an element and returns the handle of its top. -/
def appendChild (t : LiveTree) (parent : Handle) (child : Fixture) :
    Except LiveFault (Handle × LiveTree) :=
  match t.liveId? parent with
  | none => .error (.stale parent)
  | some p => .ok (.ofNumber t.nextId, t.insertFixture (some p) child)

/-- Empties the cells of some elements. -/
def clear (t : LiveTree) (ids : List Nat) : LiveTree :=
  ⟨ids.foldl (fun cells id => cells.setIfInBounds id none) t.cells⟩

/-- Takes a child out of the list of its parent. -/
def unlink (t : LiveTree) (id : Nat) : LiveTree :=
  match (t.node? id).bind LiveNode.parent with
  | none => t
  | some p => t.modify p fun node => { node with children := node.children.filter (· != id) }

/-- Removes an element with its subtree; the root stays. -/
def remove (t : LiveTree) (element : Handle) : Except LiveFault LiveTree :=
  match t.liveId? element with
  | none => .error (.stale element)
  | some id =>
    if id = root then .error .rootRemoval else .ok ((t.unlink id).clear (t.subtree id))

/-- Changes the attributes of an element. -/
def update (t : LiveTree) (element : Handle) (f : Attributes → Attributes) :
    Except LiveFault LiveTree :=
  match t.liveId? element with
  | none => .error (.stale element)
  | some id => .ok (t.modify id fun node => { node with attributes := f node.attributes })

/-- Makes a change. -/
def apply (t : LiveTree) : Mutation → Except LiveFault LiveTree
  | .append parent child => (t.appendChild parent child).map Prod.snd
  | .remove element => t.remove element
  | .update element f => t.update element f

/-- Makes a change if it can be made. -/
def tryApply (t : LiveTree) (m : Mutation) : LiveTree :=
  match t.apply m with
  | .ok t' => t'
  | .error _ => t

end LiveTree

end ElementFinder
