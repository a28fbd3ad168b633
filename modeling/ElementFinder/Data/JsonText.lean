import ElementFinder.Data.Basic
import ElementFinder.Decimal.Layout

/-!
# Writing JSON

`Data.compactJson` writes a value on one line and `Data.prettyJson` over several, two
spaces to a level.  Quotation marks, backslashes and control characters are escaped, and
numbers that are not finite are written `null`.
-/

namespace ElementFinder

/-- A lower-case hexadecimal digit. -/
def hexDigit (n : Nat) : Char :=
  if n < 10 then Char.ofNat ('0'.toNat + n) else Char.ofNat ('a'.toNat + (n - 10))

namespace JsonText

/-- The escaped form of one character of a JSON string. -/
def escape (c : Char) : List Char :=
  match c with
  | '"' => ['\\', '"']
  | '\\' => ['\\', '\\']
  | '\n' => ['\\', 'n']
  | '\r' => ['\\', 'r']
  | '\t' => ['\\', 't']
  | c =>
    if c.toNat = 8 then ['\\', 'b']
    else if c.toNat = 12 then ['\\', 'f']
    else if c.toNat < 32 then
      ['\\', 'u', '0', '0', hexDigit (c.toNat / 16), hexDigit (c.toNat % 16)]
    else [c]

/-- A JSON string with its quotation marks. -/
def quoted (s : String) : List Char :=
  '"' :: s.toList.flatMap escape ++ ['"']

/-- The text of a number in a data text. -/
def number : Binary64 → List Char
  | .nan => "null".toList
  | .signed negative m =>
    if m.isFinite then Binary64.withSign negative (NumberLayout.data.magnitude m)
    else "null".toList

/-- The text of a value that is not a list or a record. -/
def leaf : Data → List Char
  | .bool b => (if b then "true" else "false").toList
  | .int i => (toString i).toList
  | .float x => number x
  | .text s => quoted s
  | _ => "null".toList

/-- Joins the texts of entries with a separator. -/
def joined (separator : List Char) : List (List Char) → List Char
  | [] => []
  | [entry] => entry
  | entry :: rest => entry ++ separator ++ joined separator rest

/-- A line break followed by the indentation of a level. -/
def newline (level : Nat) : List Char :=
  '\n' :: List.replicate (2 * level) ' '

/-- Brackets around entries that stand on lines of their own; empty brackets stay closed. -/
def block (level : Nat) (opening closing : Char) (entries : List (List Char)) : List Char :=
  if entries.isEmpty then [opening, closing]
  else opening :: newline (level + 1) ++ joined (',' :: newline (level + 1)) entries
    ++ newline level ++ [closing]

mutual

/-- The value on one line without spaces. -/
def compact : Data → List Char
  | .list items => '[' :: joined [','] (compactItems items) ++ [']']
  | .record entries => '{' :: joined [','] (compactEntries entries) ++ ['}']
  | d => leaf d

/-- Each item on one line. -/
def compactItems : List Data → List (List Char)
  | [] => []
  | item :: rest => compact item :: compactItems rest

/-- Each entry on one line. -/
def compactEntries : List (Data × Data) → List (List Char)
  | [] => []
  | (key, value) :: rest => (leaf key ++ ':' :: compact value) :: compactEntries rest

end

mutual

/-- The value laid out over lines, starting at an indentation level. -/
def pretty (level : Nat) : Data → List Char
  | .list items => block level '[' ']' (prettyItems (level + 1) items)
  | .record entries => block level '{' '}' (prettyEntries (level + 1) entries)
  | d => leaf d

/-- Each item laid out. -/
def prettyItems (level : Nat) : List Data → List (List Char)
  | [] => []
  | item :: rest => pretty level item :: prettyItems level rest

/-- Each entry laid out. -/
def prettyEntries (level : Nat) : List (Data × Data) → List (List Char)
  | [] => []
  | (key, value) :: rest =>
    (leaf key ++ ':' :: ' ' :: pretty level value) :: prettyEntries level rest

end

end JsonText

/-- The value as JSON on one line. -/
def Data.compactJson (d : Data) : String :=
  String.ofList (JsonText.compact d)

/-- The value as indented JSON. -/
def Data.prettyJson (d : Data) : String :=
  String.ofList (JsonText.pretty 0 d)

end ElementFinder
