import ElementFinder.Binary64.Basic

/-!
# Decimal numbers

A decimal is a natural number of a power of ten.  `Decimal.nearest` is the magnitude
nearest to it, correctly rounded: both the power of ten and the unit are exact integers,
so one division decides.
-/

namespace ElementFinder

/-- The value `coefficient * 10 ^ exponent`. -/
structure Decimal where
  coefficient : Nat
  exponent : Int
deriving DecidableEq, Repr

namespace Decimal

/-- The decimal digits of a natural number, most significant first. -/
def digits (n : Nat) : List Char :=
  Nat.toDigits 10 n

/-- The magnitude nearest to a decimal.  Decimals far outside the range are decided by
their number of digits alone, which keeps the powers of ten small. -/
def nearest (d : Decimal) : Magnitude :=
  if d.coefficient = 0 then .zero
  else
    let places := (Nat.log2 d.coefficient : Int)
    if d.exponent > 400 then .infinity
    else if d.exponent + places < -400 then .zero
    else if 0 ≤ d.exponent then
      .nearest (d.coefficient * Nat.pow 10 d.exponent.toNat * Magnitude.unitsPerOne) 1
    else
      .nearest (d.coefficient * Magnitude.unitsPerOne) (Nat.pow 10 (-d.exponent).toNat)

end Decimal

end ElementFinder
