/-!
# Options of a resolution

How the matches of an XPath expression are found again among the live elements.
-/

namespace ElementFinder

/-- The index path of the root, whether expressions that use `last()` look at live elements
from the back, and whether each live element stands for one match at most. -/
structure ResolverOptions where
  indexPathRoot : String := "top"
  reverseOnLast : Bool := true
  claimUnique : Bool := true
deriving DecidableEq, Repr, Inhabited

end ElementFinder
