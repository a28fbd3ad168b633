import ElementFinder.Decimal.Shortest

/-!
# Number text

All number texts write the shortest digits that read back and differ in layout alone: an
all-positional layout, and a layout with a range of exponents that is positional and
scientific notation outside it.
-/

namespace ElementFinder

namespace Decimal

/-- The digits of a decimal without an exponent; a point stands only before a nonempty
fraction, and after at least one digit. -/
def positional (d : Decimal) : List Char :=
  let ds := digits d.coefficient
  if 0 ≤ d.exponent then
    if d.coefficient = 0 then ['0'] else ds ++ List.replicate d.exponent.toNat '0'
  else
    let fraction := (-d.exponent).toNat
    if fraction < ds.length then
      ds.take (ds.length - fraction) ++ '.' :: ds.drop (ds.length - fraction)
    else '0' :: '.' :: List.replicate (fraction - ds.length) '0' ++ ds

/-- The digits of a decimal with one digit before the point and the mark `e` before the
exponent. -/
def scientific (d : Decimal) : List Char :=
  let ds := digits d.coefficient
  let exponent : Int := d.exponent + ds.length - 1
  let mantissa :=
    match ds with
    | first :: second :: rest => first :: '.' :: second :: rest
    | ds => ds
  mantissa ++ 'e' :: (toString exponent).toList

/-- The exponent of the leading digit. -/
def leading (d : Decimal) : Int :=
  d.exponent + (digits d.coefficient).length - 1

end Decimal

/-- How finite numbers are laid out when scientific notation is allowed: positional while
the exponent of the leading digit is in a range, always with a point. -/
structure NumberLayout where
  lowest : Int
  highest : Int
deriving DecidableEq, Repr

namespace NumberLayout

/-- Data files write numbers from `1e-5` up to `1e16` positionally. -/
def data : NumberLayout := ⟨-5, 15⟩

/-- Inspected values are written positionally from `1e-4` up to `1e16`. -/
def inspected : NumberLayout := ⟨-4, 15⟩

/-- The text of a finite magnitude in a layout. -/
def magnitude (layout : NumberLayout) (m : Magnitude) : List Char :=
  let d := Decimal.shortest m
  if d.coefficient = 0 || (layout.lowest ≤ d.leading && d.leading ≤ layout.highest) then
    let text := d.positional
    if text.contains '.' then text else text ++ ['.', '0']
  else d.scientific

end NumberLayout

namespace Binary64

/-- Puts a minus sign in front of negative numbers. -/
def withSign (negative : Bool) (text : List Char) : List Char :=
  if negative then '-' :: text else text

/-- The positional text of a number: the shortest digits that read back, never an
exponent. -/
def chars : Binary64 → List Char
  | nan => ['N', 'a', 'N']
  | signed negative m =>
    withSign negative (if m.isFinite then (Decimal.shortest m).positional else ['i', 'n', 'f'])

instance : ToString Binary64 := ⟨fun x => String.ofList x.chars⟩

/-- The text of a measured value: positional, with both zeros written `0`. -/
def scalarText (x : Binary64) : String :=
  if x.isZero then "0" else toString x

/-- The text of an inspected number: always with a point or an exponent. -/
def inspect : Binary64 → String
  | nan => "NaN"
  | signed negative m =>
    String.ofList (withSign negative
      (if m.isFinite then NumberLayout.inspected.magnitude m else ['i', 'n', 'f']))

end Binary64

end ElementFinder
