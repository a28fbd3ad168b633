import ElementFinder.Pattern.Reading
import ElementFinder.Proofs.Pattern.Local.BracketSet

/-!
# Openings and counts are read locally

What follows an opening parenthesis, flags or the name of a group, and the counts of a repetition
between braces.
-/

namespace ElementFinder

namespace PatternReading

open PatternEscape

variable {f : PatternFlags} {cs rest : List Char}

/-! ## Flags and names -/

end PatternReading

end ElementFinder
