import ElementFinder.Live.Capture
import ElementFinder.Predicate.Printing
import ElementFinder.Text.Quoted

/-!
# Live queries

A query starts at a live element and takes it through steps, each of which turns a set of
elements into another: descendants or children of a type, or those of the elements that
satisfy a condition.  A set of elements is a list of nodes of one capture of the whole tree
in increasing order, which is document order.
-/

namespace ElementFinder

/-- A step of a query. -/
inductive QueryStep where
  | descendants (elementType : ElementType)
  | children (elementType : ElementType)
  | satisfying (predicate : Predicate)
  | identified (identifier : String)
  | containing (elementType : ElementType) (predicate : Predicate)

/-- A query: where it starts, and its steps. -/
structure ElementQuery where
  root : Handle
  steps : List QueryStep

/-- The text of a step. -/
def QueryStep.display : QueryStep → String
  | descendants t => ".descendants(" ++ t.shortName ++ ")"
  | children t => ".children(" ++ t.shortName ++ ")"
  | satisfying p => ".matching(" ++ p.display ++ ")"
  | identified identifier => ".identifier(" ++ inspectText identifier ++ ")"
  | containing t p => ".containing(" ++ t.shortName ++ ", " ++ p.display ++ ")"

namespace ElementQuery

/-- The query without steps. -/
def start (root : Handle) : ElementQuery :=
  ⟨root, []⟩

/-- The query with a further step. -/
def step (q : ElementQuery) (s : QueryStep) : ElementQuery :=
  ⟨q.root, q.steps ++ [s]⟩

/-- The text of a query. -/
def display (q : ElementQuery) : String :=
  q.root.text ++ String.join (q.steps.map QueryStep.display)

end ElementQuery

namespace QueryStep

/-- The set of some nodes: each once and in increasing order. -/
def setOf (size : Nat) (ids : List Nat) : List Nat :=
  (List.range size).filter fun id => ids.contains id

/-- The set that a step makes of a set of nodes. -/
def run (s : Snapshot) (current : List Nat) : QueryStep → List Nat
  | descendants t =>
    setOf s.size ((current.flatMap s.descendants).filter (s.hasType t))
  | children t =>
    setOf s.size ((current.flatMap s.children).filter (s.hasType t))
  | satisfying p => current.filter (s.satisfies p)
  | identified identifier =>
    current.filter fun id =>
      match s.attributes? id with
      | some a => a.identifier = identifier
      | none => false
  | containing t p =>
    current.filter fun id =>
      (s.descendants id).any fun d => s.hasType t d && s.satisfies p d

end QueryStep

/-- The elements that a query finds, in document order. -/
def LiveTree.query (t : LiveTree) (q : ElementQuery) : Except LiveFault (List Handle) :=
  match t.liveId? q.root with
  | none => .error (.stale q.root)
  | some id =>
    match t.capture? root with
    | none => .error .rootless
    | some c =>
      match c.nodeOf? id with
      | none => .error (.stale q.root)
      | some start => .ok (c.handles (q.steps.foldl (QueryStep.run c.snapshot) [start]))

end ElementFinder
