import ElementFinder.ElementType
import ElementFinder.Text.Search
import ElementFinder.XPath.Evaluation

/-!
# Elements that a path expression matches

Expressions may use the name of the type that accepts all types for any element.  A matched
attribute stands for the element that has it, and the root for the top element.
-/

namespace ElementFinder.XPath

/-- The expression with the name of the type that accepts all types written `*`. -/
def normalized (expression : String) : String :=
  String.ofList (replaceAll ElementType.any.name.toList ['*'] expression.toList)

/-- Whether an expression asks for the last of some nodes. -/
def usesLast (expression : String) : Bool :=
  occursIn "last()".toList expression.toList

/-- The element that a node stands for. -/
def Node.owner? : Node → Option Nat
  | .root => some 0
  | .element id => some id
  | .attribute owner _ => some owner
  | .binding _ => none

/-- The elements that an expression matches, each once, in document order. -/
def Document.matching (d : Document) (expression : String) :
    Except SelectionFault (List Nat) :=
  (d.select (normalized expression)).map fun ns => (ns.filterMap Node.owner?).eraseDups

end ElementFinder.XPath
