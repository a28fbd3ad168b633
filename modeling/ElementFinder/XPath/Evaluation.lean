import ElementFinder.XPath.Function
import ElementFinder.XPath.Reading

/-!
# Evaluating path expressions

A path starts with a set of nodes and takes each step from every node of the set.  The
nodes that a step reaches from one node stand in the order of its axis, which is the
reverse of document order for the axes that lead upward or backward; predicates count places
in this order.  What is not needed is not evaluated: the right side of `and` and `or`, and
predicates when there is no node to test.
-/

namespace ElementFinder.XPath

namespace Document

/-- The nodes above a node, the nearest first. -/
def nodesAbove (d : Document) : Node → List Node
  | .root => []
  | .element id => (d.ancestors id).map .element ++ [.root]
  | .attribute owner _ => .element owner :: (d.ancestors owner).map .element ++ [.root]
  | .binding owner => .element owner :: (d.ancestors owner).map .element ++ [.root]

/-- The elements below a node in document order. -/
def nodesBelow (d : Document) : Node → List Node
  | .root => (List.range d.size).map .element
  | .element id => (d.descendants id).map .element
  | _ => []

end Document

namespace Axis

/-- The nodes that lie along an axis, in the order of the axis. -/
def select (d : Document) : Axis → Node → List Node
  | .ancestor, n => d.nodesAbove n
  | .ancestorOrSelf, n => n :: d.nodesAbove n
  | .attribute, .element id => d.attributeNodes id
  | .attribute, _ => []
  | .binding, .element id => [.binding id]
  | .binding, _ => []
  | .child, .root => if d.size = 0 then [] else [.element 0]
  | .child, .element id => (d.children id).map .element
  | .child, _ => []
  | .descendant, n => d.nodesBelow n
  | .descendantOrSelf, n => n :: d.nodesBelow n
  | .following, .element id => (d.following id).map .element
  | .following, .attribute id _ => (d.following id).map .element
  | .following, _ => []
  | .followingSibling, .element id => (d.siblings id (d.following id)).map .element
  | .followingSibling, _ => []
  | .parent, n => (d.parent? n).toList
  | .preceding, .element id => (d.preceding id).reverse.map .element
  | .preceding, .attribute id _ => (d.preceding id).reverse.map .element
  | .preceding, _ => []
  | .precedingSibling, .element id => (d.siblings id (d.preceding id)).reverse.map .element
  | .precedingSibling, _ => []
  | .self, n => [n]

/-- Whether a node is of the principal kind of an axis. -/
def isPrincipal : Axis → Node → Bool
  | .attribute, .attribute .. => true
  | .binding, .binding _ => true
  | .attribute, _ => false
  | .binding, _ => false
  | _, .element _ => true
  | _, _ => false

end Axis

/-- Whether a node reached along an axis passes a test. -/
def NodeTest.passes (d : Document) (axis : Axis) (n : Node) : NodeTest → Bool
  | anyName => axis.isPrincipal n
  | named name => axis.isPrincipal n && d.nameOf n = name
  | anyNode => true
  | missingKind => false

/-- The failure of an expression that cannot be evaluated: an unknown name, arguments that
do not fit, or a path from something other than nodes. -/
inductive EvaluationFault where
  | unusable
deriving DecidableEq, Repr

/-- Evaluation fails or gives a result. -/
abbrev Evaluated := Except EvaluationFault

namespace Value

/-- The nodes of a set of nodes. -/
def asNodes : Value → Evaluated (List Node)
  | nodes ns => .ok ns
  | _ => .error .unusable

/-- The value of an operator that needs the values of both sides. -/
def combine (d : Document) (op : Operator) (a b : Value) : Evaluated Value :=
  let number (f : Binary64 → Binary64 → Binary64) : Evaluated Value :=
    .ok (.number (f (a.asNumber d) (b.asNumber d)))
  let truth (f : Binary64 → Binary64 → Bool) : Evaluated Value :=
    .ok (.truth (f (a.asNumber d) (b.asNumber d)))
  match op with
  | .or => .ok (.truth (a.asTruth || b.asTruth))
  | .and => .ok (.truth (a.asTruth && b.asTruth))
  | .equal => .ok (.truth (equal d a b))
  | .notEqual => .ok (.truth !(equal d a b))
  | .less => truth Binary64.lt
  | .lessEqual => truth Binary64.le
  | .greater => truth fun x y => y.lt x
  | .greaterEqual => truth fun x y => y.le x
  | .plus => number Binary64.add
  | .minus => number Binary64.sub
  | .times => number Binary64.mul
  | .div => number Binary64.div
  | .mod => number Binary64.rem
  | .union => do
    let ms ← a.asNodes
    let ns ← b.asNodes
    return .nodes (d.nodeSet (ms ++ ns))

end Value

/-- Whether the value of the left side already decides an operator. -/
def Operator.decidedBy (op : Operator) (left : Value) : Bool :=
  match op with
  | or => left.asTruth
  | and => !left.asTruth
  | _ => false

mutual

/-- The value of an expression in a context. -/
def evaluate (d : Document) (c : Context) : Expr → Evaluated Value
  | .number x => .ok (.number x)
  | .literal s => .ok (.text s)
  | .variable _ => .error .unusable
  | .call name arguments => do
    let vs ← evaluateAll d c arguments
    match Function.call? d c name vs with
    | some v => return v
    | none => throw .unusable
  | .negate e => do return .number ((← evaluate d c e).asNumber d).neg
  | .binary op left right => do
    let a ← evaluate d c left
    if op.decidedBy a then return .truth a.asTruth
    else a.combine d op (← evaluate d c right)
  | .context => .ok (.nodes [c.node])
  | .root => .ok (.nodes [.root])
  | .path start steps => do
    let ns ← (← evaluate d c start).asNodes
    return .nodes (← walk d ns steps)
  | .filter e p => do
    let ns ← (← evaluate d c e).asNodes
    return .nodes (← keep d ns p)

/-- The values of expressions in one context. -/
def evaluateAll (d : Document) (c : Context) : List Expr → Evaluated (List Value)
  | [] => .ok []
  | e :: rest => do return (← evaluate d c e) :: (← evaluateAll d c rest)

/-- The nodes that steps lead to from some nodes. -/
def walk (d : Document) (ns : List Node) : List Step → Evaluated (List Node)
  | [] => .ok ns
  | s :: rest => do walk d (d.nodeSet (← ns.mapM fun n => takeStep d n s).flatten) rest

/-- The nodes that a step leads to from one node. -/
def takeStep (d : Document) (n : Node) : Step → Evaluated (List Node)
  | .mk axis test predicates =>
    keepAll d ((axis.select d n).filter fun m => test.passes d axis m) predicates

/-- The nodes that pass predicates one after the other. -/
def keepAll (d : Document) (ns : List Node) : List Expr → Evaluated (List Node)
  | [] => .ok ns
  | p :: rest => do keepAll d (← keep d ns p) rest

/-- The nodes that pass a predicate at their place among the others. -/
def keep (d : Document) (ns : List Node) (p : Expr) : Evaluated (List Node) :=
  (ns.zipIdx 1).filterMapM fun (n, place) => do
    let v ← evaluate d ⟨n, place, ns.length⟩ p
    return if v.keeps place then some n else none

end

/-- Why an expression does not select elements. -/
inductive SelectionFault where
  | broken
  | empty
  | unusable
  | notNodes (value : Value)

/-- The reason that is reported for a fault.  Where the library that reads and evaluates paths has
a text of its own, words in angle brackets stand for it. -/
def SelectionFault.reason : SelectionFault → String
  | broken => "<parse failure>"
  | empty => "<empty expression>"
  | unusable => "<evaluation failure>"
  | notNodes v => "expression yields " ++ v.shown ++ ", not a node set"

/-- The nodes that a text selects in a document. -/
def Document.select (d : Document) (text : String) : Except SelectionFault (List Node) :=
  match Expr.ofText text with
  | .error .broken => .error .broken
  | .error .empty => .error .empty
  | .ok e =>
    match evaluate d ⟨.root, 1, 1⟩ e with
    | .error .unusable => .error .unusable
    | .ok (.nodes ns) => .ok ns
    | .ok v => .error (.notNodes v)

end ElementFinder.XPath
