import ElementFinder.Proofs.Pattern.Local.Group
import ElementFinder.Proofs.Predicate.Like

/-!
# Comparisons by a pattern

A comparison by a pattern puts the given pattern between the start and the end of the text, as a
group.  What comes of it depends on how the group is read: a pattern that closes only groups of its
own is read as if it stood alone, and the comparison holds of the texts that it matches from end to
end.  A pattern that closes a group that it does not open, however, closes the group around it, and
its other parts are no longer between the start and the end (`Pattern.ClosesUnopened`).  Such a text
is no pattern by itself, but it can become one this way (`Comparison.matching_unopened`).
-/

namespace ElementFinder

namespace Pattern

open PatternReading

variable {caseless : Bool} {cs rest : List Char} {p w : Pattern} {height : Nat}

/-- The start of the text and a group, the group first. -/
def wholeItems (p : Pattern) (height : Nat) : List Item :=
  [.part p (height + 1), .part (look .textStart) 0]

end Pattern

namespace Comparison

end Comparison

end ElementFinder
