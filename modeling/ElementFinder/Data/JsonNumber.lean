import ElementFinder.Binary64.Arithmetic
import ElementFinder.Data.Basic
import ElementFinder.Decimal.Reading

/-!
# JSON numbers

A JSON number is an integer when it is written without fraction and exponent and fits in
64 bits.  Any other number is read by a fast rule that is not always correctly rounded: its
leading digits, as many as fit in 64 bits, are rounded to a number, which is then
multiplied or divided by a power of ten.  A result beyond the largest finite number is a
fault.
-/

namespace ElementFinder.JsonNumber

/-- The number of values of a 64-bit word. -/
def wordLimit : Nat := Nat.pow 2 64

/-- Ten to a power of at most 308. -/
def powerOfTen (n : Nat) : Binary64 :=
  .signed false (Decimal.nearest ⟨1, n⟩)

/-- Multiplies or divides by powers of ten until the exponent is used up. -/
def scaled : (steps : Nat) → Binary64 → Int → Option Binary64
  | 0, x, _ => some x
  | steps + 1, x, exponent =>
    if exponent.natAbs ≤ 308 then
      if 0 ≤ exponent then
        let y := x.mul (powerOfTen exponent.natAbs)
        if y.isFinite then some y else none
      else some (x.div (powerOfTen exponent.natAbs))
    else if x.isZero then some x
    else if 0 ≤ exponent then none
    else scaled steps (x.div (powerOfTen 308)) (exponent + 308)

/-- The number with a significand and an exponent. -/
def assemble (negative : Bool) (significand : Nat) (exponent : Int) : Option Binary64 :=
  (scaled 8 (.ofNat significand) exponent).map fun x => if negative then x.neg else x

/-- Takes digits into the significand while it fits in 64 bits; the rest of the digits is
left. -/
def takeDigits (significand : Nat) : List Char → Nat × List Char
  | [] => (significand, [])
  | c :: rest =>
    if isDigit c && significand * 10 + digitValue c < wordLimit then
      takeDigits (significand * 10 + digitValue c) rest
    else (significand, c :: rest)

/-- The optional exponent at the end of a number.  An exponent of more than 31 bits is
decided by its sign. -/
def readExponent (negative : Bool) (significand : Nat) (exponent : Int) (cs : List Char) :
    Option (Data × List Char) :=
  let finish (x : Option Binary64) (rest : List Char) := x.map fun x => (Data.float x, rest)
  match cs with
  | c :: rest =>
    if c = 'e' || c = 'E' then
      let (down, rest) := splitSign rest
      let ds := rest.takeWhile isDigit
      let rest := rest.dropWhile isDigit
      if ds.isEmpty then none
      else
        let power := digitsValue 0 ds
        if Nat.pow 2 31 ≤ power then
          if significand != 0 && !down then none
          else finish (some (.signed negative .zero)) rest
        else finish (assemble negative significand
          (if down then exponent - power else exponent + power)) rest
    else finish (assemble negative significand exponent) cs
  | [] => finish (assemble negative significand exponent) cs

/-- The fraction after a point: digits that fit are taken, all others are skipped. -/
def readFraction (negative : Bool) (significand : Nat) (exponent : Int) (cs : List Char) :
    Option (Data × List Char) :=
  let (extended, rest) := takeDigits significand cs
  let taken := cs.length - rest.length
  let skipped := rest.takeWhile isDigit
  if taken = 0 && skipped.isEmpty then none
  else readExponent negative extended (exponent - taken) (rest.dropWhile isDigit)

/-- What follows the digits before the point. -/
def readTail (negative : Bool) (significand : Nat) (exponent : Int) (cs : List Char) :
    Option (Data × List Char) :=
  match cs with
  | '.' :: rest => readFraction negative significand exponent rest
  | cs => readExponent negative significand exponent cs

/-- An integer without fraction and exponent. -/
def integer (negative : Bool) (n : Nat) : Data :=
  if !negative then .int n
  else if n = 0 || Nat.pow 2 63 < n then .float (Binary64.ofNat n).neg
  else .int (-(n : Int))

/-- Reads a number at the start of a text; leading zeros are refused. -/
def read (cs : List Char) : Option (Data × List Char) :=
  let (negative, body) :=
    match cs with
    | '-' :: rest => (true, rest)
    | cs => (false, cs)
  let ds := body.takeWhile isDigit
  match ds with
  | [] => none
  | '0' :: _ :: _ => none
  | _ =>
    let (significand, rest) := takeDigits 0 body
    let skipped := rest.takeWhile isDigit
    let rest := rest.dropWhile isDigit
    match rest with
    | '.' :: _ => readTail negative significand skipped.length rest
    | 'e' :: _ => readTail negative significand skipped.length rest
    | 'E' :: _ => readTail negative significand skipped.length rest
    | _ =>
      if skipped.isEmpty then some (integer negative significand, rest)
      else readTail negative significand skipped.length rest

end ElementFinder.JsonNumber
