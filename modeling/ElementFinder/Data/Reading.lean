import ElementFinder.Data.Basic

/-!
# Reading values from data

Typed values are read from `Data` field by field.  The fields of a record are read in
written order, so that the first fault counts; unknown keys are skipped, a known key may
occur once, and a list may stand for a record by position.
-/

namespace ElementFinder

/-- Why data does not describe a value: it has the wrong shape, or a rule of the described
domain is broken, told in a sentence. -/
inductive ReadFault where
  | shape
  | rule (sentence : String)
deriving DecidableEq, Repr

/-- The sentence of a fault, if it has one. -/
def ReadFault.sentence? : ReadFault → Option String
  | shape => none
  | rule sentence => some sentence

/-- Readers fail with a fault. -/
abbrev Reader := Except ReadFault

namespace Data

mutual

/-- Whether no part of the text that wrote the value was malformed. -/
def isIntact : Data → Bool
  | .malformed => false
  | .list items => areIntact items
  | .record entries => entriesAreIntact entries
  | _ => true

/-- `isIntact` of all items. -/
def areIntact : List Data → Bool
  | [] => true
  | item :: rest => isIntact item && areIntact rest

/-- `isIntact` of all keys and values. -/
def entriesAreIntact : List (Data × Data) → Bool
  | [] => true
  | (key, value) :: rest => isIntact key && isIntact value && entriesAreIntact rest

end

/-- Reads a text. -/
def readText : Data → Reader String
  | .text s => .ok s
  | _ => .error .shape

/-- Reads a truth value. -/
def readBool : Data → Reader Bool
  | .bool b => .ok b
  | _ => .error .shape

/-- Reads a number; integers are rounded to the nearest number. -/
def readNumber : Data → Reader Binary64
  | .int i => .ok (.ofInt i)
  | .float x => .ok x
  | _ => .error .shape

/-- Reads a natural number below `2 ^ 64`. -/
def readNat : Data → Reader Nat
  | .int (.ofNat n) => .ok n
  | _ => .error .shape

/-- Reads a value that may be missing. -/
def readOption {α : Type} (read : Data → Reader α) : Data → Reader (Option α)
  | .null => .ok none
  | .blank => .ok none
  | d => (read d).map some

/-- Reads each item of a list. -/
def readList {α : Type} (read : Data → Reader α) : Data → Reader (List α)
  | .list items => items.mapM read
  | _ => .error .shape

/-- The field that a key names, by its name or by its position. -/
def fieldNamed (names : List String) : Data → Reader (Option String)
  | .text s => .ok (if names.contains s then some s else none)
  | .int (.ofNat n) => .ok names[n]?
  | _ => .error .shape

/-- Reads entries in order into a value, each known field at most once. -/
def readEntries {α : Type} (names : List String) (readField : α → String → Data → Reader α) :
    List String → α → List (Data × Data) → Reader α
  | _, value, [] => .ok value
  | seen, value, (key, d) :: rest =>
    match fieldNamed names key with
    | .error e => .error e
    | .ok none => readEntries names readField seen value rest
    | .ok (some name) =>
      if seen.contains name then .error .shape
      else
        match readField value name d with
        | .error e => .error e
        | .ok value => readEntries names readField (name :: seen) value rest

/-- Reads items in order into the fields of those positions; there are no more items than
fields. -/
def readPositions {α : Type} (readField : α → String → Data → Reader α) :
    List String → α → List Data → Reader α
  | _, value, [] => .ok value
  | [], _, _ :: _ => .error .shape
  | name :: names, value, d :: rest =>
    match readField value name d with
    | .error e => .error e
    | .ok value => readPositions readField names value rest

/-- Reads a record, or a list by position, into a value that starts with its defaults. -/
def readFields {α : Type} (names : List String) (readField : α → String → Data → Reader α)
    (start : α) : Data → Reader α
  | .record entries => readEntries names readField [] start entries
  | .list items => readPositions readField names start items
  | _ => .error .shape

end Data

end ElementFinder
