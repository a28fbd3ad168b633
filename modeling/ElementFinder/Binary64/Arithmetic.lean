import ElementFinder.Binary64.Basic

/-!
# Binary64 arithmetic

Each operation is computed exactly on units and rounded once.  The remainder takes the
sign of the dividend, and an exact zero sum is positive unless both terms are negative
zeros.
-/

namespace ElementFinder.Binary64

/-- The opposite number; the sign of a zero changes too. -/
def neg : Binary64 → Binary64
  | nan => nan
  | signed negative m => signed (!negative) m

/-- The signed number of units of a finite number. -/
def signedUnits (negative : Bool) (m : Magnitude) : Int :=
  if negative then -(m.units : Int) else m.units

/-- The sum, rounded once. -/
def add : Binary64 → Binary64 → Binary64
  | signed s m, signed t n =>
    match m.isFinite, n.isFinite with
    | true, true =>
      let total := signedUnits s m + signedUnits t n
      if total = 0 then signed (s && t) .zero
      else ofUnits (total < 0) total.natAbs 1
    | true, false => signed t n
    | false, true => signed s m
    | false, false => if s = t then signed s m else nan
  | _, _ => nan

/-- The difference, rounded once. -/
def sub (a b : Binary64) : Binary64 :=
  a.add b.neg

/-- The product, rounded once. -/
def mul : Binary64 → Binary64 → Binary64
  | signed s m, signed t n =>
    if m.isFinite && n.isFinite then
      ofUnits (s != t) (m.units * n.units) Magnitude.unitsPerOne
    else if m.val = 0 || n.val = 0 then nan
    else signed (s != t) .infinity
  | _, _ => nan

/-- The quotient, rounded once. -/
def div : Binary64 → Binary64 → Binary64
  | signed s m, signed t n =>
    match m.isFinite, n.isFinite with
    | false, false => nan
    | false, true => signed (s != t) .infinity
    | true, false => signed (s != t) .zero
    | true, true =>
      if n.val = 0 then
        if m.val = 0 then nan else signed (s != t) .infinity
      else ofUnits (s != t) (m.units * Magnitude.unitsPerOne) n.units
  | _, _ => nan

/-- The remainder of the division toward zero; it has the sign of the dividend. -/
def rem : Binary64 → Binary64 → Binary64
  | signed s m, signed _ n =>
    if !m.isFinite || n.val = 0 then nan
    else if !n.isFinite then signed s m
    else ofUnits s (m.units % n.units) 1
  | _, _ => nan

/-- The magnitude rounded to a whole number, upward or downward. -/
def wholeUnits (upward : Bool) (m : Magnitude) : Nat :=
  let one := Magnitude.unitsPerOne
  (if upward then (m.units + one - 1) / one else m.units / one) * one

/-- The largest whole number that is not above. -/
def floor : Binary64 → Binary64
  | nan => nan
  | signed s m => if m.isFinite then ofUnits s (wholeUnits s m) 1 else signed s m

/-- The smallest whole number that is not below. -/
def ceil : Binary64 → Binary64
  | nan => nan
  | signed s m => if m.isFinite then ofUnits s (wholeUnits (!s) m) 1 else signed s m

end ElementFinder.Binary64
