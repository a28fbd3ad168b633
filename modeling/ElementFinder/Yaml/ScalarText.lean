import ElementFinder.Data.JsonText
import ElementFinder.Yaml.Meaning

/-!
# Writing YAML scalars

A text is written plainly where it would be read back as that text.  A text that means
something else when it is plain, or that holds marks of the format, stands between single
quotation marks; a text of several lines is a literal block; and a text that neither can hold
is written between double quotation marks with escapes.
-/

namespace ElementFinder.Yaml

namespace ScalarText

/-- Words that stand for truth values in some dialects; they are never written plainly. -/
def truthWords : List String :=
  ["y", "Y", "yes", "Yes", "YES", "n", "N", "no", "No", "NO", "true", "True", "TRUE",
   "false", "False", "FALSE", "on", "On", "ON", "off", "Off", "OFF"]

/-- Whether a character needs an escape wherever it stands; a tabulator needs none in a literal
block. -/
def isSpecial (c : Char) : Bool :=
  !isAllowed c || c = '\r' || c.toNat = 0x85

/-- Whether a text goes on with a blank or the end of a line, or ends. -/
def startsGap : List Char → Bool
  | [] => true
  | c :: _ => isBlank c || isBreak c

/-- The marks that no plain text may start with. -/
def openingMarks : List Char :=
  ['#', ',', '[', ']', '\x7b', '\x7d', '&', '*', '!', '|', '>', '\x27', '"', '%', '@', '\x60']

/-- Whether a text starts with a mark of the format. -/
def startsWithMark : List Char → Bool
  | [] => false
  | c :: rest =>
    openingMarks.contains c || ((c = '?' || c = '-') && startsGap rest) ||
      ['-', '-', '-'].isPrefixOf (c :: rest) || ['.', '.', '.'].isPrefixOf (c :: rest)

/-- Whether a text holds a colon before a gap or a number sign after one; `afterGap` tells
whether it stands after a gap itself. -/
def holdsMark (afterGap : Bool) : List Char → Bool
  | [] => false
  | c :: rest =>
    (c = ':' && startsGap rest) || (c = '#' && afterGap) ||
      holdsMark (isBlank c || isBreak c) rest

/-- Whether a character of one class stands right before one of another. -/
def holdsPair (p q : Char → Bool) : List Char → Bool
  | c :: d :: rest => (p c && q d) || holdsPair p q (d :: rest)
  | _ => false

/-- Whether blanks at the ends of lines would be lost. -/
def hasBlankBeforeBreak (cs : List Char) : Bool :=
  holdsPair (· = ' ') isBreak cs

/-- Whether a text can stand between single quotation marks. -/
def fitsSingle (cs : List Char) : Bool :=
  !cs.any (fun c => isSpecial c || c = '\t') && !hasBlankBeforeBreak cs &&
    !holdsPair isBreak (· = ' ') cs

/-- Whether a text can be a literal block. -/
def fitsLiteral (cs : List Char) : Bool :=
  !cs.any isSpecial && !hasBlankBeforeBreak cs && cs.getLast? != some ' '

/-- Whether a text can be written plainly, whatever it would mean. -/
def fitsPlain (cs : List Char) : Bool :=
  fitsSingle cs && !cs.any isBreak && cs.head? != some ' ' && cs.getLast? != some ' ' &&
    !startsWithMark cs && !holdsMark false cs

/-- Whether a plain text means that text. -/
def meansItself (s : String) : Bool :=
  !Scalar.hasNeedlessZero s.toList &&
    match Scalar.plain s with
    | .text _ => true
    | _ => false

/-- The text of lines in which every line after the first is indented, and the first if the
text stands on a line of its own. -/
def spread (indent : Nat) (write : Char → List Char) : (ownLine : Bool) → List Char → List Char
  | _, [] => []
  | ownLine, c :: rest =>
    if isBreak c then c :: spread indent write true rest
    else
      (if ownLine then List.replicate indent ' ' else []) ++ write c ++
        spread indent write false rest

/-- Whether a text ends with the end of a line. -/
def endsLine (cs : List Char) : Bool :=
  (cs.getLast?.map isBreak).getD false

/-- A text between single quotation marks, which are doubled inside. -/
def single (indent : Nat) (cs : List Char) : List Char :=
  '\x27' :: spread indent (fun c => if c = '\x27' then [c, c] else [c]) false cs ++
    (if endsLine cs then List.replicate indent ' ' else []) ++ ['\x27']

/-- What becomes of the end of a literal block: one line end needs no mark. -/
def chompingMark (cs : List Char) : List Char :=
  match cs.reverse with
  | c :: d :: _ => if !isBreak c then ['-'] else if isBreak d then ['+'] else []
  | [c] => if isBreak c then ['+'] else ['-']
  | [] => ['-']

/-- A literal block.  The width of the indentation is given where the text does not show
it. -/
def literal (indent : Nat) (cs : List Char) : List Char :=
  let width := match cs with
    | c :: _ => if c = ' ' || isBreak c then ['2'] else []
    | [] => []
  '|' :: width ++ chompingMark cs ++ '\n' :: spread indent (fun c => [c]) true cs

/-- The letters of escapes. -/
def escapeLetters : List (Nat × Char) :=
  [(0, '0'), (7, 'a'), (8, 'b'), (9, 't'), (10, 'n'), (11, 'v'), (12, 'f'), (13, 'r'),
   (27, 'e'), (34, '"'), (92, '\\'), (0x85, 'N'), (0xA0, '_'), (0x2028, 'L'), (0x2029, 'P')]

/-- A number in a given number of upper-case hexadecimal digits. -/
def hexDigits : (count : Nat) → Nat → List Char
  | 0, _ => []
  | count + 1, n => hexDigits count (n / 16) ++ [(hexDigit (n % 16)).toUpper]

/-- The escape of a character. -/
def escape (c : Char) : List Char :=
  let n := c.toNat
  '\\' :: match escapeLetters.find? fun e => e.1 = n with
    | some (_, letter) => [letter]
    | none =>
      if n < 0x100 then 'x' :: hexDigits 2 n
      else if n < 0x10000 then 'u' :: hexDigits 4 n
      else 'U' :: hexDigits 8 n

/-- A text between double quotation marks. -/
def double (cs : List Char) : List Char :=
  '"' :: (cs.flatMap fun c =>
    if isSpecial c || isBreak c || c = '\t' || c = '"' || c = '\\' then escape c else [c]) ++ ['"']

/-- A text as a scalar whose further lines are indented. -/
def text (indent : Nat) (s : String) : List Char :=
  let cs := s.toList
  let quoted := if fitsSingle cs then single indent cs else double cs
  if truthWords.contains s then quoted
  else if cs.contains '\n' then if fitsLiteral cs then literal indent cs else double cs
  else if meansItself s && fitsPlain cs then cs
  else quoted

/-- A number; infinities and not-a-number have words. -/
def number : Binary64 → List Char
  | .nan => ".nan".toList
  | .signed negative m =>
    if m.isFinite then Binary64.withSign negative (NumberLayout.data.magnitude m)
    else Binary64.withSign negative ".inf".toList

/-- A value that is not a list or a record. -/
def leaf (indent : Nat) : Data → List Char
  | .bool b => (if b then "true" else "false").toList
  | .int i => (toString i).toList
  | .float x => number x
  | .text s => text indent s
  | _ => "null".toList

end ScalarText

end ElementFinder.Yaml
