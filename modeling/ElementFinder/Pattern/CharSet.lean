import ElementFinder.Text.CaseFold
import ElementFinder.Text.Property
import ElementFinder.Text.Script
import ElementFinder.Text.Blank

/-!
# Character sets

The sets of characters that a pattern names: ranges, properties and their combinations.
Membership is decided from the description of the set, so no set is ever listed.
-/

namespace ElementFinder

/-- A description of a set of characters. -/
inductive CharSet where
  | ranges (items : List (Nat × Nat))
  | categories (items : List GeneralCategory)
  | script (number : Nat)
  | complement (s : CharSet)
  | union (s t : CharSet)
  | inter (s t : CharSet)
  | diff (s t : CharSet)
  | symmDiff (s t : CharSet)
  | folded (s : CharSet)
  | foldedLatin (s : CharSet)
deriving Inhabited

namespace CharSet

/-- A letter of the Latin alphabet in the other case, and any other character itself. -/
def otherLatinCase (code : Nat) : Nat :=
  if 65 ≤ code && code ≤ 90 then code + 32
  else if 97 ≤ code && code ≤ 122 then code - 32
  else code

/-- Whether a set holds a code point.  A folded set holds what differs from one of its
characters in case alone. -/
def contains : CharSet → Nat → Bool
  | ranges items, code => items.any fun r => r.1 ≤ code && code ≤ r.2
  | categories items, code => items.contains (GeneralCategory.ofCode code)
  | script number, code => Script.ofCode code = number
  | complement s, code => !s.contains code
  | union s t, code => s.contains code || t.contains code
  | inter s t, code => s.contains code && t.contains code
  | diff s t, code => s.contains code && !t.contains code
  | symmDiff s t, code => s.contains code != t.contains code
  | folded s, code => s.contains code || (CaseFold.orbit code).any s.contains
  | foldedLatin s, code => s.contains code || s.contains (otherLatinCase code)

/-- The set without characters. -/
def empty : CharSet := ranges []

/-- The set of all characters. -/
def all : CharSet := complement empty

/-- The set of one character. -/
def single (c : Char) : CharSet := ranges [(c.toNat, c.toNat)]

/-- The decimal digits. -/
def digits : CharSet := categories [.Nd]

/-- The blank characters. -/
def blanks : CharSet := ranges (blankCodes.map fun code => (code, code))

/-- The word characters. -/
def words : CharSet := ranges CharProperty.word

/-- The digits `0` to `9`. -/
def latinDigits : CharSet := ranges [(48, 57)]

/-- The blank characters among the first 128 characters. -/
def latinBlanks : CharSet := ranges [(9, 13), (32, 32)]

/-- The word characters among the first 128 characters. -/
def latinWords : CharSet := ranges [(48, 57), (65, 90), (95, 95), (97, 122)]

/-- The named classes within the first 128 characters. -/
def named? : String → Option CharSet
  | "alnum" => some (ranges [(48, 57), (65, 90), (97, 122)])
  | "alpha" => some (ranges [(65, 90), (97, 122)])
  | "ascii" => some (ranges [(0, 127)])
  | "blank" => some (ranges [(9, 9), (32, 32)])
  | "cntrl" => some (ranges [(0, 31), (127, 127)])
  | "digit" => some latinDigits
  | "graph" => some (ranges [(33, 126)])
  | "lower" => some (ranges [(97, 122)])
  | "print" => some (ranges [(32, 126)])
  | "punct" => some (ranges [(33, 47), (58, 64), (91, 96), (123, 126)])
  | "space" => some latinBlanks
  | "upper" => some (ranges [(65, 90)])
  | "word" => some latinWords
  | "xdigit" => some (ranges [(48, 57), (65, 70), (97, 102)])
  | _ => none

end CharSet

end ElementFinder
