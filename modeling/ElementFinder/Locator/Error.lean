/-!
# Errors of a resolution

What stops a resolution: the tree behind it fails, a relative lookup starts from a locator
that cannot describe one element, or a chain has no step or asks for a place that its
matches do not have.
-/

namespace ElementFinder

/-- A failure of the source of elements. -/
inductive TreeError where
  | staleElement (handle : String)
  | invalidFixture (reason : String)
  | unreadableFile (path reason : String)
  | broken (reason : String)
deriving DecidableEq, Repr

/-- The sentence that reports a failure. -/
def TreeError.message : TreeError → String
  | staleElement handle => "stale element: " ++ handle
  | invalidFixture reason => "invalid fixture: " ++ reason
  | unreadableFile path reason => "io error on " ++ path ++ ": " ++ reason
  | broken reason => "internal error: " ++ reason

/-- A failure of a resolution. -/
inductive LocatorError where
  | unsupportedRelative (locator reason : String)
  | emptyChain (chain : String)
  | invalidPosition (position : Int) (available : Nat)
  | tree (cause : TreeError)
  | broken (reason : String)
deriving DecidableEq, Repr

namespace LocatorError

/-- The sentence that reports a failure. -/
def message : LocatorError → String
  | unsupportedRelative locator reason =>
    "Unsupported relative locator '" ++ locator ++ "': " ++ reason
  | emptyChain chain => "Empty class chain: '" ++ chain ++ "'"
  | invalidPosition position available =>
    "Invalid position " ++ toString position ++ " for " ++ toString available ++ " match(es)"
  | tree cause => "Tree provider error: " ++ cause.message
  | broken reason => "Internal error: " ++ reason

/-- Whether the same lookup may succeed later. -/
def isRetryable : LocatorError → Bool
  | tree (.staleElement _) => true
  | invalidPosition position _ => position != 0
  | _ => false

/-- How grave a failure is, from 0 to 3. -/
def severity : LocatorError → Nat
  | broken _ => 3
  | tree _ => 2
  | unsupportedRelative .. => 2
  | emptyChain _ => 1
  | invalidPosition .. => 1

end LocatorError

end ElementFinder
