import ElementFinder.Data.JsonText
import ElementFinder.Text.Property

/-!
# Inspected texts

An inspected text stands between quotation marks.  Quotation marks, backslashes and line
characters are escaped with a backslash, and characters that cannot be seen on their own
are written by their code.
-/

namespace ElementFinder

namespace Inspected

/-- The hexadecimal digits of a code point. -/
def hexDigits (code : Nat) : List Char :=
  Nat.toDigits 16 code

/-- Whether a character is shown as it is: it has a shape of its own. -/
def isShown (c : Char) : Bool :=
  if 0x20 ≤ c.toNat && c.toNat < 0x7F then true
  else if CodeTable.contains CharProperty.graphemeExtend c.toNat then false
  else
    match GeneralCategory.ofCode c.toNat with
    | .Cc | .Cf | .Co | .Cs | .Cn | .Zs | .Zl | .Zp => false
    | _ => true

/-- The inspected form of one character. -/
def escape (c : Char) : List Char :=
  match c with
  | '"' => ['\\', '"']
  | '\\' => ['\\', '\\']
  | '\n' => ['\\', 'n']
  | '\r' => ['\\', 'r']
  | '\t' => ['\\', 't']
  | c =>
    if c.toNat = 0 then ['\\', '0']
    else if isShown c then [c]
    else ['\\', 'u', '\x7b'] ++ hexDigits c.toNat ++ ['\x7d']

end Inspected

/-- The inspected form of a text. -/
def inspectText (s : String) : String :=
  String.ofList ('"' :: s.toList.flatMap Inspected.escape ++ ['"'])

end ElementFinder
