import ElementFinder.Decimal.Layout
import ElementFinder.Decimal.Reading
import ElementFinder.Text.Blank

/-!
# Attribute values

The value of an element is a truth value, a number or a text, as the accessibility layer
reports it.
-/

namespace ElementFinder

/-- A reported value. -/
inductive AttributeValue where
  | bool (flag : Bool)
  | number (value : Binary64)
  | text (content : String)
deriving DecidableEq, Inhabited

/-- One for true, zero for false. -/
def Binary64.ofBool (flag : Bool) : Binary64 :=
  if flag then .one else .zero

/-- A text as a number: the numeral between blanks, if it is one. -/
def numeralOfText? (s : String) : Option Binary64 :=
  Binary64.ofNumeral? (trimBlank s.toList)

namespace AttributeValue

/-- Equality of values of one kind; numbers compare as numbers. -/
def eqv : AttributeValue → AttributeValue → Bool
  | bool a, bool b => a = b
  | number a, number b => a.eqv b
  | text a, text b => a = b
  | _, _ => false

/-- The text of a text value. -/
def asText? : AttributeValue → Option String
  | text s => some s
  | _ => none

/-- The number that a value stands for; a text that is no numeral stands for zero. -/
def asNumber : AttributeValue → Binary64
  | bool flag => .ofBool flag
  | number x => x
  | text s => (numeralOfText? s).getD .zero

/-- Whether the value is the empty text. -/
def isEmptyText : AttributeValue → Bool
  | text s => s.isEmpty
  | _ => false

/-- The value as text; truth values are written `1` and `0`. -/
def display : AttributeValue → String
  | bool flag => if flag then "1" else "0"
  | number x => x.scalarText
  | text s => s

end AttributeValue

end ElementFinder
