import ElementFinder.Pattern.Basic

/-!
# Pattern flags

Flags change how the following parts of a pattern are read.  They are set for the rest of a
group or for one group alone.
-/

namespace ElementFinder

/-- How a part of a pattern is read: without regard to case, with lines as units, with dots
that match line breaks, with carriage returns as line breaks, with all characters rather
than the first 128, and with blanks and comments left out. -/
structure PatternFlags where
  caseless : Bool := false
  multiLine : Bool := false
  dotAll : Bool := true
  returns : Bool := false
  wide : Bool := true
  spaced : Bool := false
deriving DecidableEq, Repr

namespace PatternFlags

/-- Turns the flag with a letter on or off; one letter only swaps greediness, which does
not change what a pattern matches. -/
def setLetter (f : PatternFlags) (letter : Char) (on : Bool) : Option PatternFlags :=
  match letter with
  | 'i' => some { f with caseless := on }
  | 'm' => some { f with multiLine := on }
  | 's' => some { f with dotAll := on }
  | 'R' => some { f with returns := on }
  | 'u' => some { f with wide := on }
  | 'x' => some { f with spaced := on }
  | 'U' => some f
  | _ => none

/-- The same characters in the other case are included where case is disregarded. -/
def fold (f : PatternFlags) (s : CharSet) : CharSet :=
  if !f.caseless then s else if f.wide then .folded s else .foldedLatin s

/-- The word characters. -/
def words (f : PatternFlags) : CharSet :=
  if f.wide then .words else .latinWords

/-- The set that a letter after a backslash stands for. -/
def shorthand? (f : PatternFlags) (letter : Char) : Option CharSet :=
  match letter with
  | 'd' => some (if f.wide then .digits else .latinDigits)
  | 's' => some (if f.wide then .blanks else .latinBlanks)
  | 'w' => some f.words
  | 'D' => some (.complement (if f.wide then .digits else .latinDigits))
  | 'S' => some (.complement (if f.wide then .blanks else .latinBlanks))
  | 'W' => some (.complement f.words)
  | _ => none

/-- A set may be used when all characters are allowed, or when it holds none beyond the
first 128. -/
def allows (f : PatternFlags) (s : CharSet) : Bool :=
  f.wide || (List.range 128).all fun i => !s.contains (128 + i)

/-- The set of a dot. -/
def dot (f : PatternFlags) : CharSet :=
  if f.dotAll then .all
  else if f.returns then .complement (.ranges [(10, 10), (13, 13)])
  else .complement (.ranges [(10, 10)])

/-- The condition of a circumflex. -/
def start (f : PatternFlags) : Look :=
  if !f.multiLine then .textStart else if f.returns then .returnLineStart else .lineStart

/-- The condition of a dollar sign. -/
def finish (f : PatternFlags) : Look :=
  if !f.multiLine then .textEnd else if f.returns then .returnLineEnd else .lineEnd

end PatternFlags

end ElementFinder
