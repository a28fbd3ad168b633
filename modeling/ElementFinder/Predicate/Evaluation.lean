import ElementFinder.Predicate.Basic
import ElementFinder.Text.LowerCase
import ElementFinder.Text.Search

/-!
# Evaluating predicates

A predicate is evaluated on an element as it is seen: its attributes, and whether it is
visible and accessible where it stands.  Comparisons convert between texts, numbers and
truth values where a side allows it.  A type reads as its code, except that text operators
read its canonical name.
-/

namespace ElementFinder

/-- An element as a predicate sees it. -/
structure ElementView where
  attributes : Attributes
  visible : Bool
  accessible : Bool

/-- The view of attributes on their own: an element is visible when its frame has an area
that is shown. -/
def ElementView.ofAttributes (a : Attributes) : ElementView :=
  ⟨a, !a.frame.isEmpty && !a.shownFrame.isEmpty, a.accessible⟩

/-- What an attribute reads as. -/
def Attribute.read (a : Attribute) (e : ElementView) : Literal :=
  match a with
  | identifier => .text e.attributes.identifier
  | name => (e.attributes.derivedName?.map Literal.text).getD .null
  | label => .text e.attributes.label
  | value =>
    match e.attributes.derivedValue? with
    | some (.text s) => .text s
    | some (.bool b) => .bool b
    | some (.number n) => .number n
    | none => .null
  | placeholderValue => (e.attributes.placeholderValue.map Literal.text).getD .null
  | elementType => .number (.ofNat e.attributes.elementType.code.toNat)
  | enabled => .bool e.attributes.enabled
  | selected => .bool e.attributes.selected
  | visible => .bool e.visible
  | accessible => .bool e.accessible
  | x => .number e.attributes.frame.x
  | y => .number e.attributes.frame.y
  | width => .number e.attributes.frame.width
  | height => .number e.attributes.frame.height

namespace Literal

/-- The number that a literal stands for. -/
def asNumber? : Literal → Option Binary64
  | number x => some x
  | bool flag => some (.ofBool flag)
  | text s => numeralOfText? s
  | _ => none

/-- The truth value that a literal stands for. -/
def asBool? : Literal → Option Bool
  | bool flag => some flag
  | number x => some (!x.eqv .zero)
  | text s =>
    let word := String.ofList ((trimBlank s.toList).map asciiLower)
    if word = "1" || word = "true" || word = "yes" then some true
    else if word = "0" || word = "false" || word = "no" || word = "" then some false
    else none
  | _ => none

/-- The text that a literal stands for; truth values read `1` and `0`. -/
def asText? : Literal → Option String
  | text s => some s
  | number x => some (AttributeValue.number x).display
  | bool flag => some (AttributeValue.bool flag).display
  | _ => none

end Literal

/-- The order of texts by code points. -/
def compareChars : List Char → List Char → Ordering
  | [], [] => .eq
  | [], _ :: _ => .lt
  | _ :: _, [] => .gt
  | a :: as, b :: bs =>
    if a.toNat < b.toNat then .lt else if b.toNat < a.toNat then .gt else compareChars as bs

/-- The order of numbers, if both are numbers. -/
def Binary64.compare? (a b : Binary64) : Option Ordering :=
  match a.place, b.place with
  | some i, some j => some (compare i j)
  | _, _ => none

namespace Comparison

/-- Where a type is compared, a name stands for its code. -/
def codeOfName (c : Comparison) (l : Literal) : Literal :=
  if c.subject = .elementType then
    match l with
    | .text s =>
      match ElementType.ofName? s with
      | some t => .number (.ofNat t.code.toNat)
      | none => l
    | l => l
  else l

/-- The text that text operators read; a type reads as its canonical name. -/
def readText? (c : Comparison) (actual : Literal) : Option String :=
  if c.subject = .elementType then
    match actual.asNumber? with
    | some x => some (ElementType.mk (UInt16.ofNat (min (x.wholePart?.getD 0) 65535))).name
    | none => actual.asText?
  else actual.asText?

/-- The characters of a text as the comparison sees them. -/
def folded (c : Comparison) (s : String) : List Char :=
  if c.options.caseless then lowerCase s.toList else s.toList

/-- Equality of an attribute and a literal.  Null equals null alone; a truth value or a
number on one side asks the other side for one. -/
def equalValues (c : Comparison) (actual expected : Literal) : Bool :=
  match actual, expected with
  | .null, .null => true
  | .null, _ => false
  | _, .null => false
  | .text a, .text b => c.folded a = c.folded b
  | .bool a, other => other.asBool? = some a
  | other, .bool a => other.asBool? = some a
  | .number a, other => (other.asNumber?.map fun x => x.eqv a).getD false
  | other, .number a => (other.asNumber?.map fun x => x.eqv a).getD false
  | .list a, .list b => Literal.eqvAll a b
  | _, _ => false

/-- The order of an attribute and a literal: as numbers if both stand for one, else as
texts. -/
def ordering? (c : Comparison) (actual expected : Literal) : Option Ordering :=
  match actual.asNumber?, expected.asNumber? with
  | some a, some b => a.compare? b
  | _, _ =>
    match actual, expected with
    | .text a, .text b => some (compareChars (c.folded a) (c.folded b))
    | _, _ => none

/-- Whether a test holds of the text of an attribute and the text of a literal. -/
def testTexts (c : Comparison) (test : List Char → List Char → Bool)
    (actual expected : Literal) : Bool :=
  match c.readText? actual, expected.asText? with
  | some s, some t => test (c.folded s) (c.folded t)
  | _, _ => false

/-- Whether the text of an attribute matches the pattern. -/
def matchesPattern (c : Comparison) (actual : Literal) : Bool :=
  match c.readText? actual, c.pattern? with
  | some s, some p => p.occursIn s.toList
  | _, _ => false

/-- Whether the comparison holds when the attribute reads as a value. -/
def holdsOf (c : Comparison) (actual : Literal) : Bool :=
  let expected := c.codeOfName c.literal
  match c.operator with
  | .equal => c.equalValues actual expected
  | .notEqual => !c.equalValues actual expected
  | .less => c.ordering? actual expected = some .lt
  | .lessOrEqual =>
    c.ordering? actual expected = some .lt || c.ordering? actual expected = some .eq
  | .greater => c.ordering? actual expected = some .gt
  | .greaterOrEqual =>
    c.ordering? actual expected = some .gt || c.ordering? actual expected = some .eq
  | .beginsWith => c.testTexts (fun s t => t.isPrefixOf s) actual expected
  | .contains => c.testTexts (fun s t => occursIn t s) actual expected
  | .endsWith => c.testTexts (fun s t => t.isSuffixOf s) actual expected
  | .like => c.matchesPattern actual
  | .matching => c.matchesPattern actual
  | .within =>
    match expected with
    | .list items => items.any fun item => c.equalValues actual (c.codeOfName item)
    | expected => c.testTexts (fun s t => occursIn s t) actual expected

/-- Whether the comparison holds of an element. -/
def holds (c : Comparison) (e : ElementView) : Bool :=
  c.holdsOf (c.subject.read e)

end Comparison

/-- Whether a predicate holds of an element. -/
def Predicate.holds (p : Predicate) (e : ElementView) : Bool :=
  Formula.eval (fun c => c.holds e) p

end ElementFinder
