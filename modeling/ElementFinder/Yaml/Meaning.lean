import ElementFinder.Data.Basic
import ElementFinder.Decimal.Reading
import ElementFinder.Yaml.Node

/-!
# What YAML nodes mean

A plain scalar means a truth value, an integer, a number or nothing if it is written like
one, and otherwise a text.  Integers may be written in base 2, 8 or 16, and a numeral with a
needless leading zero is a text.  A tag can ask for one of these kinds; other tags make a
scalar a text, and tags of one's own have no meaning as data.
-/

namespace ElementFinder

namespace Yaml

namespace Scalar

/-- The words for nothing. -/
def isNull (s : String) : Bool :=
  ["null", "Null", "NULL", "~"].contains s

/-- The truth value that a word stands for. -/
def truth? (s : String) : Option Bool :=
  if ["true", "True", "TRUE"].contains s then some true
  else if ["false", "False", "FALSE"].contains s then some false
  else none

/-- Whether a text is digits that start with a needless zero. -/
def hasNeedlessZero (cs : List Char) : Bool :=
  match (splitSign cs).2 with
  | '0' :: c :: rest => (c :: rest).all isDigit
  | _ => false

/-- The value of a digit in some base. -/
def digitIn? (base : Nat) (c : Char) : Option Nat :=
  (JsonReading.hexValue? c).filter fun d => d < base

/-- A natural number in some base, with at least one digit. -/
def natIn? (base : Nat) (cs : List Char) : Option Nat :=
  if cs.isEmpty then none
  else (cs.mapM (digitIn? base)).map fun ds => ds.foldl (fun n d => base * n + d) 0

/-- A natural number: decimal, or in base 16, 8 or 2 after a mark. -/
def nat? (cs : List Char) : Option Nat :=
  match cs with
  | '0' :: 'x' :: rest => natIn? 16 rest
  | '0' :: 'o' :: rest => natIn? 8 rest
  | '0' :: 'b' :: rest => natIn? 2 rest
  | cs => if hasNeedlessZero cs then none else natIn? 10 cs

/-- An integer with an optional sign. -/
def int? (cs : List Char) : Option Int :=
  let (negative, rest) := splitSign cs
  (nat? rest).map fun n => if negative then -(n : Int) else n

/-- The integers that data can hold have 64 bits; wider ones of up to 128 bits are
malformed. -/
def intData (i : Int) : Option Data :=
  if -(Nat.pow 2 63 : Int) ≤ i && i < Nat.pow 2 64 then some (.int i)
  else if -(Nat.pow 2 127 : Int) ≤ i && i < Nat.pow 2 128 then some .malformed
  else none

/-- A number: a finite numeral, or a word for an infinity or for not-a-number. -/
def number? (cs : List Char) : Option Binary64 :=
  let unsigned := match cs with
    | '+' :: rest => rest
    | cs => cs
  let word := String.ofList unsigned
  if [".inf", ".Inf", ".INF"].contains word then some .infinity
  else if ["-.inf", "-.Inf", "-.INF"].contains (String.ofList cs) then
    some (.signed true .infinity)
  else if [".nan", ".NaN", ".NAN"].contains (String.ofList cs) then some .nan
  else if unsigned.length < cs.length && (splitSign unsigned).2.length < unsigned.length then none
  else (Binary64.ofNumeral? unsigned).filter Binary64.isFinite

/-- What a plain scalar without a tag means. -/
def plain (s : String) : Data :=
  let cs := s.toList
  if s.isEmpty then .blank
  else if isNull s then .null
  else
    match truth? s, (int? cs).bind intData, number? cs with
    | some b, _, _ => .bool b
    | none, some d, _ => d
    | none, none, some x => if hasNeedlessZero cs then .text s else .float x
    | none, none, none => .text s

/-- Whether a tag is one of one's own. -/
def isOwnTag (tag : Option String) : Bool :=
  match tag with
  | some t => t.toList.head? = some '!'
  | none => false

/-- What a scalar means. -/
def meaning (tag : Option String) (content : String) (style : ScalarStyle) : Data :=
  let orMalformed (d : Option Data) : Data := d.getD .malformed
  match tag with
  | none => if style = .plain then plain content else .text content
  | some t =>
    if isOwnTag tag then .malformed
    else if t = "tag:yaml.org,2002:bool" then orMalformed ((truth? content).map .bool)
    else if t = "tag:yaml.org,2002:int" then orMalformed ((int? content.toList).bind intData)
    else if t = "tag:yaml.org,2002:float" then orMalformed ((number? content.toList).map .float)
    else if t = "tag:yaml.org,2002:null" then if isNull content then .null else .malformed
    else .text content

end Scalar

namespace Node

mutual

/-- What a node means; `depth` counts the levels that may still be opened. -/
def toDataWithin (depth : Nat) : Node → Data
  | absent => .blank
  | malformed => .malformed
  | scalar tag content style => Scalar.meaning tag content style
  | sequence tag items =>
    if depth = 0 || Scalar.isOwnTag tag then .malformed
    else .list (itemsWithin (depth - 1) items)
  | mapping tag entries =>
    if depth = 0 || Scalar.isOwnTag tag then .malformed
    else .record (entriesWithin (depth - 1) entries)

/-- What each item means. -/
def itemsWithin (depth : Nat) : List Node → List Data
  | [] => []
  | n :: rest => toDataWithin depth n :: itemsWithin depth rest

/-- What each key and value means. -/
def entriesWithin (depth : Nat) : List (Node × Node) → List (Data × Data)
  | [] => []
  | (k, v) :: rest => (toDataWithin depth k, toDataWithin depth v) :: entriesWithin depth rest

end

/-- What a node means; nodes nest at most 128 deep. -/
def toData (n : Node) : Data :=
  toDataWithin 128 n

end Node

end Yaml

/-- Reads a YAML text. -/
def Document.ofYaml (text : String) : Document :=
  let document := Yaml.Document.ofText text
  ⟨document.root.toData, document.hasTrailer⟩

end ElementFinder
