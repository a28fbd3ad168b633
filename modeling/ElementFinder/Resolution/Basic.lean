import ElementFinder.Diagnostic
import ElementFinder.Live.Tree

/-!
# Resolutions

What a locator leads to: live elements, and the problems met on the way.
-/

namespace ElementFinder

/-- Elements with the problems met while looking for them. -/
structure Resolution where
  elements : List Handle := []
  diagnostics : List Diagnostic := []
deriving Inhabited

namespace Resolution

/-- The resolution that a problem leaves empty. -/
def ofProblem (d : Diagnostic) : Resolution :=
  { diagnostics := [d] }

/-- Adds a problem after the others. -/
def report (r : Resolution) (d : Diagnostic) : Resolution :=
  { r with diagnostics := r.diagnostics ++ [d] }

/-- Adds an element after the others. -/
def found (r : Resolution) (h : Handle) : Resolution :=
  { r with elements := r.elements ++ [h] }

end Resolution

end ElementFinder
