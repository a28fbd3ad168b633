import ElementFinder.Decimal.Basic

/-!
# Numerals

A numeral is an optional sign followed by a word (`inf`, `infinity`, `nan`, in either
case) or by digits with at most one point and an optional exponent.  At least one digit
stands beside the point.  `Binary64.ofNumeral?` reads a whole text as one numeral and
rounds correctly.
-/

namespace ElementFinder

/-- The ten decimal digits. -/
def isDigit (c : Char) : Bool :=
  '0' ≤ c && c ≤ '9'

/-- The value of a digit. -/
def digitValue (c : Char) : Nat :=
  c.toNat - '0'.toNat

/-- The natural number that a list of digits writes, after the digits already read. -/
def digitsValue (start : Nat) (ds : List Char) : Nat :=
  ds.foldl (fun n c => 10 * n + digitValue c) start

/-- Splits off an optional sign; `true` stands for minus. -/
def splitSign : List Char → Bool × List Char
  | '-' :: rest => (true, rest)
  | '+' :: rest => (false, rest)
  | cs => (false, cs)

/-- A nonempty list of digits, read to its end. -/
def natOfDigits? (cs : List Char) : Option Nat :=
  if !cs.isEmpty && cs.all isDigit then some (digitsValue 0 cs) else none

/-- An optional sign and at least one digit, read to the end. -/
def intOfDigits? (cs : List Char) : Option Int :=
  let (negative, rest) := splitSign cs
  (natOfDigits? rest).map fun n => if negative then -(n : Int) else n

/-- The letter in lower case, for the letters of the Latin alphabet alone. -/
def asciiLower (c : Char) : Char :=
  if 'A' ≤ c && c ≤ 'Z' then Char.ofNat (c.toNat + 32) else c

namespace Decimal

/-- An unsigned decimal numeral: digits with at most one point, at least one digit in
all, then an optional exponent. -/
def ofNumeral? (cs : List Char) : Option Decimal :=
  let whole := cs.takeWhile isDigit
  let rest := cs.dropWhile isDigit
  let (fraction, rest) :=
    match rest with
    | '.' :: rest => (rest.takeWhile isDigit, rest.dropWhile isDigit)
    | rest => ([], rest)
  if whole.isEmpty && fraction.isEmpty then none
  else
    let coefficient := digitsValue (digitsValue 0 whole) fraction
    let exponent : Option Int :=
      match rest with
      | [] => some 0
      | c :: rest => if c = 'e' || c = 'E' then intOfDigits? rest else none
    exponent.map fun e => ⟨coefficient, e - fraction.length⟩

end Decimal

/-- Reads a whole text as a numeral, rounding to the nearest binary64 number. -/
def Binary64.ofNumeral? (cs : List Char) : Option Binary64 :=
  let (negative, rest) := splitSign cs
  let word := String.ofList (rest.map asciiLower)
  if word = "inf" || word = "infinity" then some (.signed negative .infinity)
  else if word = "nan" then some .nan
  else (Decimal.ofNumeral? rest).map fun d => .signed negative d.nearest

end ElementFinder
