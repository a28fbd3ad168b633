import ElementFinder.ElementType

/-!
# Diagnostics

Problems that a resolution meets and gets over: it goes on with what is left and reports
them beside its result.
-/

namespace ElementFinder

/-- A problem that did not stop a resolution. -/
inductive Diagnostic where
  | invalidTypeName (name : String)
  | malformedChain (token reason : String)
  | invalidPredicate (expression reason : String)
  | invalidXPath (expression reason : String)
  | reconciliationMiss (indexPath elementType : String)
deriving DecidableEq, Repr

/-- The sentence that reports a problem. -/
def Diagnostic.message : Diagnostic → String
  | invalidTypeName name => InvalidTypeName.message ⟨name⟩
  | malformedChain token reason => "malformed chain token '" ++ token ++ "': " ++ reason
  | invalidPredicate expression reason =>
    "invalid predicate '" ++ expression ++ "': " ++ reason
  | invalidXPath expression reason => "invalid xpath '" ++ expression ++ "': " ++ reason
  | reconciliationMiss indexPath elementType =>
    "no live element matches snapshot node " ++ indexPath ++ " (" ++ elementType ++ ")"

end ElementFinder
