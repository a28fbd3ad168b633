import ElementFinder.Chain.Reading
import ElementFinder.Locator.Data

/-!
# Chains as data

The records that chains are written as.
-/

namespace ElementFinder

/-- A step as a record. -/
def ChainStep.toData (s : ChainStep) : Data :=
  let marker := match s with
    | anyDepth => true
    | select .. => false
  .object [("elementType", .text s.elementType.name),
    ("position", (s.position?.map Data.int).getD .null),
    ("isDescendant", .bool marker),
    ("predicate", (s.predicate?.map fun p => Data.text p.display).getD .null)]

/-- A chain as a record, with the problems met while reading it. -/
def ParsedChain.toData (p : ParsedChain) : Data :=
  .object [("query", .object [("steps", .list (p.chain.map ChainStep.toData))]),
    ("diagnostics", .list (p.diagnostics.map Diagnostic.toData))]

end ElementFinder
