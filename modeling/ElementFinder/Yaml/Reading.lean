import ElementFinder.Yaml.Meaning

/-!
# Reading values from YAML nodes

Values whose types are known beforehand are read from nodes rather than from data, because a
text may then be written like a number and keeps its spelling.  As with data, unknown keys are
skipped and a known key may occur once.
-/

namespace ElementFinder

namespace Yaml.Node

mutual

/-- Whether no part of the text that wrote the node was malformed. -/
def isIntact : Node → Bool
  | absent => true
  | malformed => false
  | scalar .. => true
  | sequence _ items => areIntact items
  | mapping _ entries => entriesAreIntact entries

/-- `isIntact` of all items. -/
def areIntact : List Node → Bool
  | [] => true
  | n :: rest => isIntact n && areIntact rest

/-- `isIntact` of all keys and values. -/
def entriesAreIntact : List (Node × Node) → Bool
  | [] => true
  | (k, v) :: rest => isIntact k && isIntact v && entriesAreIntact rest

end

/-- The entries of a mapping; where nothing is written there are none. -/
def entries? : Node → Option (List (Node × Node))
  | absent => some []
  | scalar _ "" .plain => some []
  | mapping _ entries => some entries
  | _ => none

/-- The text of a scalar, however it is written. -/
def text? : Node → Option String
  | scalar _ content _ => some content
  | _ => none

/-- The truth value of a plain scalar, or of a literal block that is tagged as one. -/
def truth? : Node → Option Bool
  | scalar _ content .plain => Scalar.truth? content
  | scalar (some tag) content .literal =>
    if tag = "tag:yaml.org,2002:bool" then Scalar.truth? content else none
  | _ => none

/-- Reads entries in order into a value.  Unknown keys are skipped, and a known one may occur
once. -/
def readEntries {α : Type} (names : List String) (readField : α → String → Node → Option α) :
    (seen : List String) → α → List (Node × Node) → Option α
  | _, value, [] => some value
  | seen, value, (key, n) :: rest =>
    match key.text? with
    | none => none
    | some name =>
      if !names.contains name then readEntries names readField seen value rest
      else if seen.contains name then none
      else
        match readField value name n with
        | none => none
        | some value => readEntries names readField (name :: seen) value rest

end Yaml.Node

end ElementFinder
