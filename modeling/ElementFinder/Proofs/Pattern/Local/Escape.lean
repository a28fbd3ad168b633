import ElementFinder.Proofs.Pattern.Local.Basic

/-!
# Escapes are read locally

Escapes with a code or a property end with their last digit or their closing brace.  A word boundary
is different: a brace behind it may or may not name a special kind of boundary.  If only blanks
follow the brace, the boundary alone is not a pattern, but it is one before the closing
(`OpenBrace`).
-/

namespace ElementFinder

namespace PatternEscape

open PatternReading

variable {f : PatternFlags} {cs r rest : List Char}

/-! ## Codes and properties -/

end PatternEscape

end ElementFinder
