/-!
# Tables of code points

Character properties are tables over code points.  A table is written as lines of letters:
each number is a run of letters read in base 26, its last letter in lower case.  A property
is a list of ranges, each written as the gap since the previous range and its length less
one.
-/

namespace ElementFinder

namespace CodeTable

/-- The numbers that lines of letters write. -/
def numbers (lines : List String) : List Nat :=
  let step (state : Nat × List Nat) (c : Char) : Nat × List Nat :=
    if 'A' ≤ c && c ≤ 'Z' then (state.1 * 26 + (c.toNat - 'A'.toNat), state.2)
    else (0, (state.1 * 26 + (c.toNat - 'a'.toNat)) :: state.2)
  ((lines.flatMap String.toList).foldl step (0, [])).2.reverse

/-- Ranges from gaps and lengths; `start` is the first code point after the previous
range. -/
def rangesFrom (start : Nat) : List Nat → List (Nat × Nat)
  | gap :: extent :: rest =>
    (start + gap, start + gap + extent) :: rangesFrom (start + gap + extent + 1) rest
  | _ => []

/-- The ranges that lines of letters write, in increasing order. -/
def ranges (lines : List String) : List (Nat × Nat) :=
  rangesFrom 0 (numbers lines)

/-- Whether a code point lies in one of the ranges, which are in increasing order. -/
def contains : List (Nat × Nat) → Nat → Bool
  | [], _ => false
  | (low, high) :: rest, code =>
    if code < low then false else code ≤ high || contains rest code

/-- A run of code points that are mapped by the same offset; only every `stride`-th of them
is mapped. -/
structure Shift where
  first : Nat
  count : Nat
  stride : Nat
  downward : Bool
  offset : Nat

/-- Shifts from gaps, counts, strides, directions and offsets. -/
def shiftsFrom (start : Nat) : List Nat → List Shift
  | gap :: count :: stride :: downward :: offset :: rest =>
    ⟨start + gap, count, stride, downward = 1, offset⟩ :: shiftsFrom (start + gap) rest
  | _ => []

/-- The shifts that lines of letters write, in increasing order of their first code
points. -/
def shifts (lines : List String) : List Shift :=
  shiftsFrom 0 (numbers lines)

namespace Shift

/-- Whether a code point is one that the shift maps. -/
def applies (s : Shift) (code : Nat) : Bool :=
  s.first ≤ code && code ≤ s.first + s.count * s.stride && (code - s.first) % s.stride = 0

/-- The code point that a mapped one goes to. -/
def apply (s : Shift) (code : Nat) : Nat :=
  if s.downward then code - s.offset else code + s.offset

/-- The code point that is mapped to a given one, if there is one. -/
def source? (s : Shift) (target : Nat) : Option Nat :=
  let code := if s.downward then target + s.offset else target - s.offset
  if s.applies code && s.apply code = target then some code else none

end Shift

/-- Maps a code point by the first shift that applies to it. -/
def map (table : List Shift) (code : Nat) : Nat :=
  match table.find? fun s => s.applies code with
  | some s => s.apply code
  | none => code

/-- All code points that are mapped to a given one, without itself. -/
def sources (table : List Shift) (target : Nat) : List Nat :=
  table.filterMap fun s => s.source? target

end CodeTable

end ElementFinder
