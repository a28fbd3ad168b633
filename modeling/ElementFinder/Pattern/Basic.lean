import ElementFinder.Pattern.CharSet

/-!
# Patterns

A pattern describes parts of a text.  It is matched by moving a set of text positions
through it: `Pattern.advance` takes the positions where a match may start and returns the
positions where one may end.  Sets of positions are natural numbers, bit `i` standing for
position `i`, so that one character moves the whole set by a shift.
-/

namespace ElementFinder

/-- A condition on a position, told by the characters beside it. -/
inductive Look where
  | textStart
  | textEnd
  | lineStart
  | lineEnd
  | returnLineStart
  | returnLineEnd
  | boundary (words : CharSet)
  | noBoundary (words : CharSet)
  | wordStart (words : CharSet)
  | wordEnd (words : CharSet)
  | halfStart (words : CharSet)
  | halfEnd (words : CharSet)

/-- A pattern: nothing, one character of a set, a condition on the position, two patterns
in a row, either of two patterns, or repetitions of a pattern. -/
inductive Pattern where
  | empty
  | one (set : CharSet)
  | look (condition : Look)
  | seq (first second : Pattern)
  | alt (first second : Pattern)
  | repeated (body : Pattern) (least : Nat) (most : Option Nat)
deriving Inhabited

namespace Look

/-- Whether a character is there and in a set. -/
def isIn (words : CharSet) : Option Char → Bool
  | some c => words.contains c.toNat
  | none => false

/-- Whether the condition holds between two characters, which are missing at the ends of
the text. -/
def holds (before after : Option Char) : Look → Bool
  | textStart => before = none
  | textEnd => after = none
  | lineStart => before = none || before = some '\n'
  | lineEnd => after = none || after = some '\n'
  | returnLineStart =>
    before = none || before = some '\n' || (before = some '\r' && after != some '\n')
  | returnLineEnd =>
    after = none || after = some '\r' || (after = some '\n' && before != some '\r')
  | boundary words => isIn words before != isIn words after
  | noBoundary words => isIn words before == isIn words after
  | wordStart words => !isIn words before && isIn words after
  | wordEnd words => isIn words before && !isIn words after
  | halfStart words => !isIn words before
  | halfEnd words => !isIn words after

end Look

namespace Pattern

/-- The number whose lowest bit is given and whose other bits follow. -/
def bit (low : Bool) (high : Nat) : Nat :=
  2 * high + low.toNat

/-- The positions whose next character is in a set. -/
def before (set : CharSet) : List Char → Nat
  | [] => 0
  | c :: rest => bit (set.contains c.toNat) (before set rest)

/-- The positions where a condition holds; `previous` is the character before the text. -/
def places (condition : Look) (previous : Option Char) : List Char → Nat
  | [] => bit (condition.holds previous none) 0
  | c :: rest => bit (condition.holds previous (some c)) (places condition (some c) rest)

/-- Applies a step a number of times, stopping when no position is left. -/
def times (step : Nat → Nat) : Nat → Nat → Nat
  | 0, s => s
  | n + 1, s => if s = 0 then 0 else times step n (step s)

/-- Applies a step up to a number of times and collects all positions, stopping when a step
adds none. -/
def upTo (step : Nat → Nat) : Nat → Nat → Nat
  | 0, s => s
  | n + 1, s =>
    let reached := s ||| step s
    if reached = s then s else upTo step n reached

/-- The positions where a match ends that starts at one of the given positions. -/
def advance (text : List Char) : Pattern → Nat → Nat
  | empty, s => s
  | one set, s => (s &&& before set text) <<< 1
  | look condition, s => s &&& places condition none text
  | seq p q, s => advance text q (advance text p s)
  | alt p q, s => advance text p s ||| advance text q s
  | repeated p least most, s =>
    let s := times (advance text p) least s
    match most with
    | some most => upTo (advance text p) (most - least) s
    | none => upTo (advance text p) (text.length + 1) s

/-- Whether a match stands anywhere in the text. -/
def occursIn (p : Pattern) (text : List Char) : Bool :=
  advance text p (Nat.pow 2 (text.length + 1) - 1) != 0

/-- The pattern with the whole text as its only possible match. -/
def whole (p : Pattern) : Pattern :=
  seq (look .textStart) (seq p (look .textEnd))

end Pattern

end ElementFinder
