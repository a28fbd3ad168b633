/-!
# Binary64 numbers

Coordinates, sizes, counts and number values are IEEE 754 binary64 numbers, held
exactly.  The nonnegative magnitudes are finitely many and linearly ordered, so a
magnitude is named by its position in that order; infinity is the last.  Neighbouring
positions differ by one unit in the last place, which makes rounding a matter of
natural-number division: `Magnitude.nearest` scales a quotient so that 53 bits remain
and rounds once, a half going to the even neighbour.

Every finite magnitude is a whole number of *units* of `2 ^ (-1074)`, and comparison,
arithmetic and decimal text are all stated on those units.
-/

namespace ElementFinder

/-- The position of a nonnegative binary64 magnitude among all of them, zero first and
infinity last. -/
abbrev Magnitude := Fin (2047 * Nat.pow 2 52 + 1)

/-- The whole number nearest to `num / den`, a half going to the even neighbour. -/
def roundHalfEven (num den : Nat) : Nat :=
  let quotient := num / den
  let remainder := num % den
  if 2 * remainder < den then quotient
  else if den < 2 * remainder then quotient + 1
  else quotient + quotient % 2

namespace Magnitude

/-- One unit is `2 ^ (-1074)`, so one is this many units. -/
def unitsPerOne : Nat := Nat.pow 2 1074

/-- The smallest magnitude. -/
def zero : Magnitude := ⟨0, by decide⟩

/-- The largest magnitude, beyond every finite one. -/
def infinity : Magnitude := ⟨2047 * Nat.pow 2 52, by decide⟩

/-- A magnitude is finite when it lies below infinity. -/
def isFinite (m : Magnitude) : Bool := m.val < 2047 * Nat.pow 2 52

/-- The value of a finite magnitude in units.  Within one block of `2 ^ 52` positions the
spacing is constant, and it doubles from each block to the next, the first two sharing
the spacing of one unit. -/
def units (m : Magnitude) : Nat :=
  let scale := m.val / Nat.pow 2 52 - 1
  (m.val - scale * Nat.pow 2 52) * Nat.pow 2 scale

/-- The magnitude nearest to `num / den` units.  Quotients of more than 53 bits are first
divided by the power of two that leaves 53; what rounds past the largest finite
magnitude is infinity. -/
def nearest (num den : Nat) : Magnitude :=
  let scale := Nat.log2 (num / den) - 52
  let position := scale * Nat.pow 2 52 + roundHalfEven num (den * Nat.pow 2 scale)
  if h : position < 2047 * Nat.pow 2 52 + 1 then ⟨position, h⟩ else infinity

end Magnitude

/-- A binary64 number: not a number, or a sign with a magnitude.  The two zeros are
distinct values. -/
inductive Binary64 where
  | nan
  | signed (negative : Bool) (magnitude : Magnitude)
deriving DecidableEq

namespace Binary64

/-- Positive zero. -/
def zero : Binary64 := .signed false .zero

/-- Positive infinity. -/
def infinity : Binary64 := .signed false .infinity

instance : Inhabited Binary64 := ⟨zero⟩

/-- The number nearest to `num / den` units, with the given sign. -/
def ofUnits (negative : Bool) (num den : Nat) : Binary64 :=
  .signed negative (.nearest num den)

/-- The number nearest to a natural number. -/
def ofNat (n : Nat) : Binary64 :=
  ofUnits false (n * Magnitude.unitsPerOne) 1

/-- The number nearest to an integer. -/
def ofInt (i : Int) : Binary64 :=
  ofUnits (i < 0) (i.natAbs * Magnitude.unitsPerOne) 1

/-- One. -/
def one : Binary64 := ofNat 1

/-- True of not-a-number alone. -/
def isNaN : Binary64 → Bool
  | nan => true
  | signed .. => false

/-- True of the numbers with a finite magnitude. -/
def isFinite : Binary64 → Bool
  | nan => false
  | signed _ m => m.isFinite

/-- True of the two zeros. -/
def isZero : Binary64 → Bool
  | nan => false
  | signed _ m => m.val = 0

/-- The place of a number on the number line; both zeros have place zero. -/
def place : Binary64 → Option Int
  | nan => none
  | signed true m => some (-(m.val : Int))
  | signed false m => some m.val

/-- Numeric equality: the zeros are equal and not-a-number differs from everything. -/
def eqv (a b : Binary64) : Bool :=
  match a.place, b.place with
  | some i, some j => i == j
  | _, _ => false

/-- Strict numeric order; false as soon as one side is not a number. -/
def lt (a b : Binary64) : Bool :=
  match a.place, b.place with
  | some i, some j => i < j
  | _, _ => false

/-- Numeric order; false as soon as one side is not a number. -/
def le (a b : Binary64) : Bool :=
  match a.place, b.place with
  | some i, some j => i ≤ j
  | _, _ => false

/-- The whole part of the magnitude, toward zero; `none` for infinities and
not-a-number. -/
def wholePart? : Binary64 → Option Nat
  | nan => none
  | signed _ m => if m.isFinite then some (m.units / Magnitude.unitsPerOne) else none

end Binary64

end ElementFinder
