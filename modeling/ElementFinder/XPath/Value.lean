import ElementFinder.Attributes.Value
import ElementFinder.Binary64.Arithmetic
import ElementFinder.Text.Quoted
import ElementFinder.XPath.Document

/-!
# Values of path expressions

An expression has a set of nodes, a number, a text or a truth value as its value, and every
value can be read as each of the last three.  The text of a set of nodes is the text of its
first node in document order.
-/

namespace ElementFinder.XPath

/-- A value.  The nodes of a set stand in document order. -/
inductive Value where
  | nodes (nodes : List Node)
  | number (value : Binary64)
  | text (content : String)
  | truth (holds : Bool)

namespace Value

/-- The text of a number. -/
def numberText : Binary64 → String
  | .nan => "NaN"
  | .signed negative m =>
    if m.isFinite then toString (Binary64.signed negative m)
    else if negative then "-Infinity"
    else "Infinity"

/-- A value as a text. -/
def asText (d : Document) : Value → String
  | nodes ns => ((ns.head?).map d.textOf).getD ""
  | number x => numberText x
  | text s => s
  | truth b => if b then "true" else "false"

/-- A text as a number; a text that is no numeral is not a number. -/
def numberOfText (s : String) : Binary64 :=
  (numeralOfText? s).getD .nan

/-- A value as a number. -/
def asNumber (d : Document) : Value → Binary64
  | number x => x
  | truth b => .ofBool b
  | v => numberOfText (v.asText d)

/-- A value as a truth value. -/
def asTruth : Value → Bool
  | nodes ns => !ns.isEmpty
  | number x => !x.isNaN && !x.isZero
  | text s => !s.isEmpty
  | truth b => b

/-- Whether two values are equal.  A set of nodes is equal to a value if one of its nodes
is; otherwise values are compared as truth values, numbers or texts, the first of these
that one of them is. -/
def equal (d : Document) (a b : Value) : Bool :=
  match a, b with
  | nodes ms, nodes ns => ms.any fun m => ns.any fun n => d.textOf m = d.textOf n
  | nodes ns, number x => ns.any fun n => (numberOfText (d.textOf n)).eqv x
  | number x, nodes ns => ns.any fun n => (numberOfText (d.textOf n)).eqv x
  | nodes ns, text s => ns.any fun n => d.textOf n = s
  | text s, nodes ns => ns.any fun n => d.textOf n = s
  | truth p, v => p = v.asTruth
  | v, truth p => v.asTruth = p
  | number x, v => x.eqv (v.asNumber d)
  | v, number x => (v.asNumber d).eqv x
  | text s, text t => s = t

/-- A number as a place: its whole part, and zero for what is not above it. -/
def placeOf : Binary64 → Option Nat
  | .nan => some 0
  | .signed true _ => some 0
  | .signed false m => (Binary64.signed false m).wholePart?

/-- Whether a predicate with this value keeps the node at a place: a number keeps the place
that is its whole part. -/
def keeps (place : Nat) : Value → Bool
  | number x => placeOf x = some place
  | v => v.asTruth

/-- A value as it is shown to a user. -/
def shown : Value → String
  | nodes _ => ""
  | number x => "Number(" ++ x.inspect ++ ")"
  | text s => "String(" ++ inspectText s ++ ")"
  | truth b => "Boolean(" ++ (if b then "true" else "false") ++ ")"

end Value

end ElementFinder.XPath
