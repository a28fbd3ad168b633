import ElementFinder.Locator.Data
import ElementFinder.Text.Blank
import ElementFinder.Yaml.Reading
import ElementFinder.Yaml.Text

/-!
# Settings

The settings of the command line: how much it logs, whether it stops at the first match, and
the options of resolutions.  They are kept in a YAML file, where anything may be left out, and
environment variables override what the file says.
-/

namespace ElementFinder

/-- Reads one option of a resolution from a settings file. -/
def ResolverOptions.readNode (o : ResolverOptions) (key : String) (n : Yaml.Node) :
    Option ResolverOptions :=
  match key with
  | "index_path_root" => n.text?.map fun s => { o with indexPathRoot := s }
  | "reverse_on_last" => n.truth?.map fun b => { o with reverseOnLast := b }
  | _ => n.truth?.map fun b => { o with claimUnique := b }

/-- The settings of the command line. -/
structure Settings where
  logLevel : String := "info"
  firstMatchOnly : Bool := false
  resolver : ResolverOptions := {}
deriving DecidableEq, Repr, Inhabited

namespace Settings

/-- Reads one setting. -/
def readNode (s : Settings) (key : String) (n : Yaml.Node) : Option Settings :=
  match key with
  | "log_level" => n.text?.map fun level => { s with logLevel := level }
  | "first_match_only" => n.truth?.map fun b => { s with firstMatchOnly := b }
  | _ => do
    let entries ← n.entries?
    let options ← Yaml.Node.readEntries ResolverOptions.keys ResolverOptions.readNode [] {} entries
    return { s with resolver := options }

/-- Reads the text of a settings file; missing settings take their defaults. -/
def ofYaml (text : String) : Option Settings := do
  let document := Yaml.Document.ofText text
  if document.hasTrailer || !document.root.isIntact then none
  else
    Yaml.Node.readEntries ["log_level", "first_match_only", "resolver"] readNode [] {}
      (← document.root.entries?)

/-- Settings as a record. -/
def toData (s : Settings) : Data :=
  .object [("log_level", .text s.logLevel), ("first_match_only", .bool s.firstMatchOnly),
    ("resolver", s.resolver.toData)]

/-- The text of a settings file. -/
def yaml (s : Settings) : String :=
  s.toData.yaml

/-- The truth value that a variable asks for; case and blanks around it do not matter. -/
def flag? (raw : String) : Option Bool :=
  let word := (trimText raw).map Char.toLower
  if ["1", "true", "yes", "on"].contains word then some true
  else if ["0", "false", "no", "off"].contains word then some false
  else none

/-- The settings with the environment variables put over them; a blank level and a flag that
is no truth value count for nothing. -/
def override (environment : String → Option String) (s : Settings) : Settings :=
  let level := (environment "UILOC_LOG_LEVEL").map trimText |>.filter (· != "")
  let first := (environment "UILOC_FIRST_MATCH").bind flag?
  let reverse := (environment "UILOC_REVERSE_ON_LAST").bind flag?
  { logLevel := level.getD s.logLevel
    firstMatchOnly := first.getD s.firstMatchOnly
    resolver :=
      { s.resolver with reverseOnLast := reverse.getD s.resolver.reverseOnLast } }

end Settings

end ElementFinder
