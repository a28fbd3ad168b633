import ElementFinder.Chain.Data
import ElementFinder.CommandLine.Basic
import ElementFinder.Resolution.Basic
import ElementFinder.Yaml.Text

/-!
# Reports

The answers of commands.  An answer has a text for people and, where it makes sense, data for
programs.  People are warned about the problems met on the way; programs find them in the
data.
-/

namespace ElementFinder

/-- The answer of a command. -/
structure CommandAnswer where
  text : String
  data : Option Data := none
  warnings : List String := []

/-- What a command prints: its answer, and its warnings apart from it. -/
structure Printout where
  text : String
  warnings : List String := []
deriving DecidableEq, Repr

/-- The printed form of an answer. -/
def CommandAnswer.print (a : CommandAnswer) (format : OutputFormat) : Printout :=
  match format, a.data with
  | .json, some d => { text := d.prettyJson ++ "\n" }
  | .yaml, some d => { text := d.yaml }
  | _, _ => { text := a.text, warnings := a.warnings }

/-- Lines of text, each with its end. -/
def linesText (lines : List String) : String :=
  String.join (lines.map (· ++ "\n"))

/-- An element that a search has found. -/
structure MatchRow where
  handle : Handle
  elementType : ElementType
  name : Option String
  label : String

namespace MatchRow

/-- The row of an element. -/
def ofElement (h : Handle) (a : Attributes) : MatchRow :=
  ⟨h, a.elementType, a.derivedName?, a.label⟩

/-- A row as a record. -/
def toData (r : MatchRow) : Data :=
  .object [("handle", .text r.handle.text), ("type", .text r.elementType.name),
    ("name", (r.name.map Data.text).getD .null), ("label", .text r.label)]

/-- A row as a line with tabulators. -/
def line (r : MatchRow) : String :=
  r.handle.text ++ "\t" ++ r.elementType.name ++ "\tname=" ++ r.name.getD "" ++ "\tlabel=" ++
    r.label

end MatchRow

/-- What a search for `subject` has found. -/
structure MatchReport where
  subject : String
  rows : List MatchRow
  diagnostics : List Diagnostic

namespace MatchReport

/-- A report as a record. -/
def toData (r : MatchReport) : Data :=
  .object [("locator", .text r.subject), ("matches", .list (r.rows.map MatchRow.toData)),
    ("diagnostics", .list (r.diagnostics.map Diagnostic.toData))]

/-- A report as an answer. -/
def answer (r : MatchReport) : CommandAnswer where
  text :=
    if r.rows.isEmpty then linesText ["No elements match " ++ r.subject]
    else linesText (r.rows.map MatchRow.line)
  data := some r.toData
  warnings := r.diagnostics.map Diagnostic.message

end MatchReport

/-- A text that fills at least `width` places, set against their left end. -/
def padRight (width : Nat) (s : String) : String :=
  String.ofList (s.toList.rightpad width ' ')

/-- A text that fills at least `width` places, set against their right end. -/
def padLeft (width : Nat) (s : String) : String :=
  String.ofList (s.toList.leftpad width ' ')

/-- The line of a step of a chain: its number, its text and what it looks through. -/
def ChainStep.line (number : Nat) (s : ChainStep) : String :=
  let axis := match s with
    | anyDepth => "descendants"
    | select .. => "children"
  padLeft 2 (toString number) ++ ". " ++ padRight 40 s.display ++ " " ++ axis

/-- A chain as an answer. -/
def ParsedChain.answer (p : ParsedChain) : CommandAnswer where
  text := linesText (p.chain.zipIdx.map fun (s, i) => s.line (i + 1))
  data := some p.toData
  warnings := p.diagnostics.map Diagnostic.message

/-- The list of all element types as an answer. -/
def ElementType.registryAnswer : CommandAnswer where
  text := linesText (all.map fun t => padLeft 3 (toString t.code.toNat) ++ "  " ++ t.name)
  data := some (.list (all.map fun t =>
    .object [("code", .int t.code.toNat), ("name", .text t.name)]))

/-- A nested structure as an answer; people read it as JSON too. -/
def Data.answer (d : Data) : CommandAnswer where
  text := d.prettyJson ++ "\n"
  data := some d

end ElementFinder
