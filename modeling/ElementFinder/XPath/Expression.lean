import ElementFinder.Binary64.Basic

/-!
# Path expressions

The expressions of the path language: literals, operators, function calls, and paths whose
steps walk along an axis and keep the nodes that pass a test and all predicates.
Abbreviations are written out: `//` is a step to all nodes below, `.` and `..` are steps to
the node itself and to its parent.
-/

namespace ElementFinder.XPath

/-- The directions of a step. -/
inductive Axis where
  | ancestor
  | ancestorOrSelf
  | attribute
  | binding
  | child
  | descendant
  | descendantOrSelf
  | following
  | followingSibling
  | parent
  | preceding
  | precedingSibling
  | self
deriving DecidableEq, Repr

/-- The names of the axes. -/
def Axis.names : List (String × Axis) :=
  [("ancestor-or-self", .ancestorOrSelf), ("ancestor", .ancestor), ("attribute", .attribute),
   ("child", .child), ("descendant-or-self", .descendantOrSelf), ("descendant", .descendant),
   ("following-sibling", .followingSibling), ("following", .following),
   ("namespace", .binding), ("parent", .parent), ("preceding-sibling", .precedingSibling),
   ("preceding", .preceding), ("self", .self)]

/-- What a step asks of a node: the principal kind of its axis with any name or one name,
any kind, or a kind that the documents do not hold. -/
inductive NodeTest where
  | anyName
  | named (name : String)
  | anyNode
  | missingKind
deriving DecidableEq, Repr

/-- The operators. -/
inductive Operator where
  | or
  | and
  | equal
  | notEqual
  | less
  | lessEqual
  | greater
  | greaterEqual
  | plus
  | minus
  | times
  | div
  | mod
  | union
deriving DecidableEq, Repr

mutual

/-- An expression. -/
inductive Expr where
  | number (value : Binary64)
  | literal (content : String)
  | variable (name : String)
  | call (function : String) (arguments : List Expr)
  | negate (operand : Expr)
  | binary (operator : Operator) (left right : Expr)
  | context
  | root
  | path (start : Expr) (steps : List Step)
  | filter (selection : Expr) (predicate : Expr)

/-- A step of a path. -/
inductive Step where
  | mk (axis : Axis) (test : NodeTest) (predicates : List Expr)

end

instance : Inhabited Expr := ⟨.context⟩

end ElementFinder.XPath
