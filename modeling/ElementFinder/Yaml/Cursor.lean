/-!
# Places in a YAML text

A cursor is a place in a text: what is left of it, and the line, column and number of
characters before it.  Lines end with any of the five Unicode line ends.
-/

namespace ElementFinder.Yaml

/-- A place in a text. -/
structure Cursor where
  rest : List Char
  line : Nat := 0
  column : Nat := 0
  index : Nat := 0
deriving Inhabited

/-- Spaces and tabulators. -/
def isBlank (c : Char) : Bool :=
  c = ' ' || c = '\t'

/-- The characters that end a line: carriage return, line feed, next line, and the line and
paragraph separators. -/
def isBreak (c : Char) : Bool :=
  c = '\r' || c = '\n' || c.toNat = 0x85 || c.toNat = 0x2028 || c.toNat = 0x2029

/-- Whether a character may occur in a text at all. -/
def isAllowed (c : Char) : Bool :=
  let n := c.toNat
  n = 9 || n = 10 || n = 13 || (0x20 ≤ n && n ≤ 0x7E) || n = 0x85 ||
    (0xA0 ≤ n && n ≤ 0xFFFD && n != 0xFEFF) || 0x10000 ≤ n

namespace Cursor

/-- The character at a distance. -/
def peek (c : Cursor) (n : Nat) : Option Char :=
  c.rest[n]?

/-- Whether the character at a distance is given. -/
def sees (c : Cursor) (n : Nat) (x : Char) : Bool :=
  c.peek n = some x

/-- Whether a blank, the end of a line or the end of the text stands at a distance. -/
def isGap (c : Cursor) (n : Nat) : Bool :=
  match c.peek n with
  | none => true
  | some x => isBlank x || isBreak x

/-- Whether the end of a line or of the text stands at a distance. -/
def isLineEnd (c : Cursor) : Bool :=
  match c.rest with
  | [] => true
  | x :: _ => isBreak x

/-- The place after the next characters, none of which ends a line. -/
def skip (c : Cursor) (n : Nat) : Cursor :=
  { c with rest := c.rest.drop n, column := c.column + n, index := c.index + n }

/-- The place after the end of a line. -/
def skipBreak (c : Cursor) : Cursor :=
  match c.rest with
  | '\r' :: '\n' :: rest => ⟨rest, c.line + 1, 0, c.index + 2⟩
  | _ :: rest => ⟨rest, c.line + 1, 0, c.index + 1⟩
  | [] => c

/-- The text that the end of a line stands for: a line feed, except for the two separators,
which stand for themselves. -/
def breakText (c : Cursor) : List Char :=
  match c.rest with
  | x :: _ => if x.toNat = 0x2028 || x.toNat = 0x2029 then [x] else ['\n']
  | [] => []

/-- The place after all next characters of a class that holds no line ends. -/
def skipWhile (c : Cursor) (p : Char → Bool) : Cursor :=
  c.skip (c.rest.takeWhile p).length

/-- The place at the end of the line. -/
def skipLine (c : Cursor) : Cursor :=
  c.skipWhile fun x => !isBreak x

/-- Whether three equal marks stand alone at the beginning of a line. -/
def isMarker (c : Cursor) (mark : Char) : Bool :=
  c.column = 0 && c.sees 0 mark && c.sees 1 mark && c.sees 2 mark && c.isGap 3

/-- Whether a document starts or ends here. -/
def isDocumentMarker (c : Cursor) : Bool :=
  c.isMarker '-' || c.isMarker '.'

end Cursor

end ElementFinder.Yaml
