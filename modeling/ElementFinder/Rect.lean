import ElementFinder.Binary64.Arithmetic
import ElementFinder.Decimal.Layout

/-!
# Rectangles

Axis-aligned rectangles in screen points.  A rectangle without area meets nothing, and
rectangles that only share an edge do not meet.
-/

namespace ElementFinder

/-- A rectangle, given by its origin and its size. -/
structure Rect where
  x : Binary64
  y : Binary64
  width : Binary64
  height : Binary64
deriving DecidableEq

namespace Rect

/-- The rectangle at the origin without any size. -/
def zero : Rect := ⟨.zero, .zero, .zero, .zero⟩

instance : Inhabited Rect := ⟨zero⟩

/-- Equality of the four numbers. -/
def eqv (a b : Rect) : Bool :=
  a.x.eqv b.x && a.y.eqv b.y && a.width.eqv b.width && a.height.eqv b.height

/-- A rectangle is empty when one of its sides is not positive. -/
def isEmpty (r : Rect) : Bool :=
  r.width.le .zero || r.height.le .zero

/-- The right edge. -/
def maxX (r : Rect) : Binary64 :=
  r.x.add r.width

/-- The bottom edge. -/
def maxY (r : Rect) : Binary64 :=
  r.y.add r.height

/-- Two rectangles meet when they share some area. -/
def intersects (a b : Rect) : Bool :=
  !a.isEmpty && !b.isEmpty &&
    a.x.lt b.maxX && b.x.lt a.maxX && a.y.lt b.maxY && b.y.lt a.maxY

/-- The smallest rectangle with whole coordinates that contains another. -/
def integral (r : Rect) : Rect :=
  let x := r.x.floor
  let y := r.y.floor
  ⟨x, y, r.maxX.ceil.sub x, r.maxY.ceil.sub y⟩

/-- The rectangle of the same size at the origin. -/
def bounds (r : Rect) : Rect :=
  ⟨.zero, .zero, r.width, r.height⟩

/-- The frame text: origin and size in nested braces. -/
def frameText (r : Rect) : String :=
  "\x7b\x7b" ++ r.x.scalarText ++ ", " ++ r.y.scalarText ++ "\x7d, \x7b" ++
    r.width.scalarText ++ ", " ++ r.height.scalarText ++ "\x7d\x7d"

end Rect

end ElementFinder
