import ElementFinder.Decimal.Basic

/-!
# Shortest decimals

`Decimal.shortest m` is a decimal that reads back as the magnitude `m`, with as few
digits as possible and, among those, nearest to `m`.  On the grid of multiples of a power
of ten only the two neighbours of `m` need to be tried, because reading is monotone: when
any multiple reads back, one of the neighbours does.  Every decimal tried is read back
before it is taken, and the exact value stands at the end of the search, so the result
always reads back.
-/

namespace ElementFinder.Decimal

/-- The units of a decimal whose value is `units / scale`. -/
def unitFraction (d : Decimal) : Nat × Nat :=
  if 0 ≤ d.exponent then
    (d.coefficient * Nat.pow 10 d.exponent.toNat * Magnitude.unitsPerOne, 1)
  else
    (d.coefficient * Magnitude.unitsPerOne, Nat.pow 10 (-d.exponent).toNat)

/-- Whether the value of a finite magnitude is at least `10 ^ exponent`. -/
def reachesPower (m : Magnitude) (exponent : Int) : Bool :=
  let (num, den) := unitFraction ⟨1, exponent⟩
  num ≤ m.units * den

/-- The exponent of the leading decimal digit of a positive finite magnitude. -/
def leadingExponent (m : Magnitude) : Int :=
  let estimate := (((Nat.log2 m.units : Int) - 1074) * 30103) / 100000
  if reachesPower m (estimate + 1) then estimate + 1
  else if reachesPower m estimate then estimate
  else estimate - 1

/-- The neighbours of a finite magnitude among the multiples of `10 ^ exponent`, the
nearer one first; the lower one counts as nearer when both are as near. -/
def neighbours (m : Magnitude) (exponent : Int) : List Decimal :=
  let (num, den) := unitFraction ⟨1, exponent⟩
  let value := m.units * den
  let low := value / num
  let excess := value % num
  if excess = 0 then [⟨low, exponent⟩]
  else if 2 * excess ≤ num then [⟨low, exponent⟩, ⟨low + 1, exponent⟩]
  else [⟨low + 1, exponent⟩, ⟨low, exponent⟩]

/-- The exact value of a finite magnitude: a unit is `5 ^ 1074` times `10 ^ (-1074)`. -/
def exact (m : Magnitude) : Decimal :=
  ⟨m.units * Nat.pow 5 1074, -1074⟩

/-- Takes trailing zeros of the coefficient into the exponent. -/
def trim (fuel : Nat) (d : Decimal) : Decimal :=
  match fuel with
  | 0 => d
  | fuel + 1 =>
    if d.coefficient != 0 && d.coefficient % 10 = 0 then
      trim fuel ⟨d.coefficient / 10, d.exponent + 1⟩
    else d

/-- Searches the grids from coarse to fine for a decimal that reads back; the first grid is
that of the leading digit. -/
def searchFrom (m : Magnitude) (lead : Int) (grids : Nat) : Decimal :=
  let found := (List.range grids).findSome? fun (step : Nat) =>
    (neighbours m (lead - step)).find? fun d => d.nearest = m
  found.getD (exact m)

/-- The shortest decimal that reads back as a finite magnitude, without trailing zeros in
its coefficient. -/
def shortest (m : Magnitude) : Decimal :=
  if m.val = 0 then ⟨0, 0⟩
  else trim 1200 (searchFrom m (leadingExponent m) 17)

end ElementFinder.Decimal
