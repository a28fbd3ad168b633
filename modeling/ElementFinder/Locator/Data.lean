import ElementFinder.Data.Reading
import ElementFinder.Diagnostic
import ElementFinder.Locator.Basic
import ElementFinder.Locator.Options

/-!
# Locators, diagnostics and options as data

The records and names by which these values are written and read.
-/

namespace ElementFinder

namespace Data

/-- Reads one of a number of names, which may also be the only key of a record with a
missing value. -/
def readChoice {α : Type} (choices : List (String × α)) (d : Data) : Reader α :=
  let named (name : String) : Reader α :=
    match choices.find? fun choice => choice.1 = name with
    | some (_, a) => .ok a
    | none => .error .shape
  match d with
  | .text name => named name
  | .record [(.text name, .null)] => named name
  | _ => .error .shape

/-- Reads records of a tagged family: the tag, then texts for all keys of that tag. -/
def readTexts (keys : List String) (d : Data) : Reader (List String) := do
  let fields ← d.readFields keys
    (fun (fields : List (String × String)) key value => do return (key, ← value.readText) :: fields)
    []
  keys.mapM fun key =>
    match fields.find? fun field => field.1 = key with
    | some (_, value) => .ok value
    | none => .error .shape

end Data

/-- Reads a strategy from its name in data. -/
def Strategy.ofData (d : Data) : Reader Strategy :=
  d.readChoice (all.map fun s => (s.dataName, s))

/-- Reads a mode from its name. -/
def MatchMode.ofData (d : Data) : Reader MatchMode :=
  d.readChoice [("first", .first), ("all", .all)]

namespace Diagnostic

/-- The kind of a diagnostic and its parts, as they are named in data. -/
def parts : Diagnostic → String × List (String × String)
  | invalidTypeName name => ("invalid_type_name", [("name", name)])
  | malformedChain token reason =>
    ("malformed_chain_query", [("token", token), ("reason", reason)])
  | invalidPredicate expression reason =>
    ("invalid_predicate", [("expression", expression), ("reason", reason)])
  | invalidXPath expression reason =>
    ("invalid_x_path", [("expression", expression), ("reason", reason)])
  | reconciliationMiss indexPath elementType =>
    ("reconciliation_miss", [("index_path", indexPath), ("element_type", elementType)])

/-- A diagnostic as a record with its kind. -/
def toData (d : Diagnostic) : Data :=
  let (kind, fields) := d.parts
  .object (("kind", .text kind) :: fields.map fun (key, value) => (key, .text value))

/-- The diagnostic of a kind, read from the rest of its record. -/
def ofParts (kind : String) (d : Data) : Reader Diagnostic := do
  match kind with
  | "invalid_type_name" =>
    match ← d.readTexts ["name"] with
    | [name] => return .invalidTypeName name
    | _ => throw .shape
  | "malformed_chain_query" =>
    match ← d.readTexts ["token", "reason"] with
    | [token, reason] => return .malformedChain token reason
    | _ => throw .shape
  | "invalid_predicate" =>
    match ← d.readTexts ["expression", "reason"] with
    | [expression, reason] => return .invalidPredicate expression reason
    | _ => throw .shape
  | "invalid_x_path" =>
    match ← d.readTexts ["expression", "reason"] with
    | [expression, reason] => return .invalidXPath expression reason
    | _ => throw .shape
  | "reconciliation_miss" =>
    match ← d.readTexts ["index_path", "element_type"] with
    | [indexPath, elementType] => return .reconciliationMiss indexPath elementType
    | _ => throw .shape
  | _ => throw .shape

/-- Reads a diagnostic from a record with its kind, or from a list that starts with it. -/
def ofData (d : Data) : Reader Diagnostic :=
  match d with
  | .record _ =>
    match d.get? "kind" with
    | some (.text kind) => ofParts kind d
    | _ => .error .shape
  | .list (.text kind :: rest) => ofParts kind (.list rest)
  | _ => .error .shape

end Diagnostic

namespace ResolverOptions

/-- The keys of the options. -/
def keys : List String := ["index_path_root", "reverse_on_last", "claim_unique"]

/-- Reads one option. -/
def readField (o : ResolverOptions) (key : String) (d : Data) : Reader ResolverOptions :=
  match key with
  | "index_path_root" => return { o with indexPathRoot := ← d.readText }
  | "reverse_on_last" => return { o with reverseOnLast := ← d.readBool }
  | _ => return { o with claimUnique := ← d.readBool }

/-- Reads options; missing ones take their defaults. -/
def ofData (d : Data) : Reader ResolverOptions :=
  d.readFields keys readField {}

/-- Options as a record. -/
def toData (o : ResolverOptions) : Data :=
  .object [("index_path_root", .text o.indexPathRoot), ("reverse_on_last", .bool o.reverseOnLast),
    ("claim_unique", .bool o.claimUnique)]

end ResolverOptions

end ElementFinder
