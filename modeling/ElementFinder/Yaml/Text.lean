import ElementFinder.Yaml.ScalarText

/-!
# Writing YAML

`Data.yaml` writes a value in block style.  Records are indented by two spaces; a list that
is the value of a key stands at the column of the key, its items after dashes.  An item that
is itself a record or a list starts on the line of its dash.
-/

namespace ElementFinder

namespace Yaml.Text

/-- A scalar with the end of its line, which a literal block may bring along. -/
def leafLine (indent : Nat) (d : Data) : List Char :=
  let cs := ScalarText.leaf indent d
  if ScalarText.endsLine cs then cs else cs ++ ['\n']

/-- Indentation. -/
def margin (indent : Nat) : List Char :=
  List.replicate indent ' '

mutual

/-- A value that starts where the line already is indented as far as `indent`. -/
def value (indent : Nat) : Data → List Char
  | .list [] => "[]\n".toList
  | .record [] => "\x7b\x7d\n".toList
  | .list items => JsonText.joined (margin indent) (itemLines indent items)
  | .record entries => JsonText.joined (margin indent) (entryLines indent entries)
  | d => leafLine indent d

/-- What stands after the colon of a key at a column. -/
def fieldValue (indent : Nat) : Data → List Char
  | .list (d :: rest) =>
    '\n' :: margin indent ++ JsonText.joined (margin indent) (itemLines indent (d :: rest))
  | .record (e :: rest) =>
    '\n' :: margin (indent + 2) ++
      JsonText.joined (margin (indent + 2)) (entryLines (indent + 2) (e :: rest))
  | .list [] => " []\n".toList
  | .record [] => " \x7b\x7d\n".toList
  | d => ' ' :: leafLine (indent + 2) d

/-- Each item after its dash. -/
def itemLines (indent : Nat) : List Data → List (List Char)
  | [] => []
  | d :: rest => ('-' :: ' ' :: value (indent + 2) d) :: itemLines indent rest

/-- Each entry with its key. -/
def entryLines (indent : Nat) : List (Data × Data) → List (List Char)
  | [] => []
  | (key, d) :: rest =>
    (ScalarText.leaf (indent + 2) key ++ ':' :: fieldValue indent d) :: entryLines indent rest

end

end Yaml.Text

/-- The value as YAML. -/
def Data.yaml (d : Data) : String :=
  String.ofList <|
    match d with
    | .list _ => Yaml.Text.value 0 d
    | .record _ => Yaml.Text.value 0 d
    | d => Yaml.Text.leafLine 2 d

end ElementFinder
