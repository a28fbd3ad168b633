import ElementFinder.Data.JsonReading
import ElementFinder.Yaml.Cursor

/-!
# Scalars of YAML

A scalar is written plainly, between quotation marks, or as a block of lines.  Where a plain
or quoted scalar goes over a line end the lines are folded: a single line end stands for a
blank, and further line ends for themselves.  A block keeps its line ends or folds them, and
its end is kept, cut or shortened to one line end.
-/

namespace ElementFinder.Yaml

/-- The ways to write a scalar, as far as they make a difference: plainly, as a literal
block, or in another way that always writes a text. -/
inductive ScalarStyle where
  | plain
  | literal
  | quoted
deriving DecidableEq, Repr

/-- Blanks and line ends between two parts of a scalar: the blanks before the first line
end, that line end, and the further ones. -/
structure Spacing where
  blanks : List Char := []
  first : Option (List Char) := none
  further : List Char := []

namespace Spacing

/-- The text that spacing stands for. -/
def text (s : Spacing) : List Char :=
  match s.first with
  | none => s.blanks
  | some ['\n'] => if s.further.isEmpty then [' '] else s.further
  | some first => first ++ s.further

/-- Whether a line has ended. -/
def endsLine (s : Spacing) : Bool :=
  s.first.isSome

end Spacing

/-- Passes blanks and line ends.  In a plain scalar of a block a tabulator must not stand
left of the indentation. -/
def scanSpacing (indent : Int) : (fuel : Nat) → Spacing → Cursor → Option (Spacing × Cursor)
  | 0, _, _ => none
  | fuel + 1, s, c =>
    match c.rest with
    | [] => some (s, c)
    | x :: _ =>
      if isBlank x then
        if s.endsLine then
          if x = '\t' && c.column < indent then none else scanSpacing indent fuel s (c.skip 1)
        else scanSpacing indent fuel { s with blanks := s.blanks ++ [x] } (c.skip 1)
      else if isBreak x then
        let s :=
          if s.endsLine then { s with further := s.further ++ c.breakText }
          else { s with blanks := [], first := some c.breakText }
        scanSpacing indent fuel s c.skipBreak
      else some (s, c)

namespace Plain

/-- The marks that end a plain scalar inside brackets. -/
def isFlowMark (c : Char) : Bool :=
  c = ',' || c = '[' || c = ']' || c = '\x7b' || c = '\x7d'

/-- Whether a colon here is misplaced: inside brackets a mark stands right after it. -/
def isMisplacedColon (inFlow : Bool) : List Char → Bool
  | ':' :: x :: _ => inFlow && (isFlowMark x || x = '?')
  | _ => false

/-- Whether a plain scalar ends here. -/
def endsAt (inFlow : Bool) (c : Cursor) : Bool :=
  match c.rest with
  | [] => true
  | x :: _ => isBlank x || isBreak x || (x = ':' && c.isGap 1) || (inFlow && isFlowMark x)

/-- A run of characters without gaps. -/
def scanRun (inFlow : Bool) : (fuel : Nat) → (read : List Char) → Cursor →
    Option (List Char × Cursor)
  | 0, _, _ => none
  | fuel + 1, read, c =>
    if isMisplacedColon inFlow c.rest then none
    else if endsAt inFlow c then some (read.reverse, c)
    else scanRun inFlow fuel (c.rest.take 1 ++ read) (c.skip 1)

/-- A plain scalar: its text, whether a line has ended after it, and the place after it. -/
def scan (inFlow : Bool) (indent : Int) : (fuel : Nat) → (read : List Char) → Spacing →
    Cursor → Option (List Char × Bool × Cursor)
  | 0, _, _, _ => none
  | fuel + 1, read, s, c =>
    if c.isDocumentMarker || c.sees 0 '#' then some (read, s.endsLine, c)
    else
      match scanRun inFlow (c.rest.length + 1) [] c with
      | none => none
      | some (run, after) =>
        let (read, s) := if run.isEmpty then (read, s) else (read ++ s.text ++ run, {})
        match after.rest with
        | [] => some (read, s.endsLine, after)
        | x :: _ =>
          if isBlank x || isBreak x then
            match scanSpacing indent (after.rest.length + 1) s after with
            | none => none
            | some (s, after) =>
              if !inFlow && after.column < indent then some (read, s.endsLine, after)
              else scan inFlow indent fuel read s after
          else some (read, s.endsLine, after)

end Plain

namespace Quoted

/-- The characters that a letter after a backslash stands for. -/
def escapes : List (Char × Nat) :=
  [('0', 0), ('a', 7), ('b', 8), ('t', 9), ('\t', 9), ('n', 10), ('v', 11), ('f', 12),
   ('r', 13), ('e', 27), (' ', 32), ('"', 34), ('/', 47), ('\\', 92), ('N', 0x85),
   ('_', 0xA0), ('L', 0x2028), ('P', 0x2029)]

/-- The number of hexadecimal digits after a letter. -/
def codeLength : Char → Nat
  | 'x' => 2
  | 'u' => 4
  | 'U' => 8
  | _ => 0

/-- The character after a backslash, with the number of characters that write it. -/
def escape? : List Char → Option (Char × Nat)
  | [] => none
  | x :: rest =>
    match escapes.find? fun e => e.1 = x with
    | some (_, code) => some (Char.ofNat code, 1)
    | none =>
      let length := codeLength x
      let digits := (rest.take length).filterMap JsonReading.hexValue?
      let code := digits.foldl (fun n d => 16 * n + d) 0
      if length = 0 || digits.length < length || (0xD800 ≤ code && code < 0xE000)
          || 0x110000 ≤ code then none
      else some (Char.ofNat code, 1 + length)

/-- A run of characters without gaps, up to the closing mark; the last part tells whether
an escaped line end closes the run. -/
def scanRun (single : Bool) : (fuel : Nat) → (read : List Char) → Cursor →
    Option (List Char × Bool × Cursor)
  | 0, _, _ => none
  | fuel + 1, read, c =>
    match c.rest with
    | [] => some (read.reverse, false, c)
    | x :: rest =>
      if isBlank x || isBreak x then some (read.reverse, false, c)
      else if single && x = '\x27' then
        if rest.head? = some '\x27' then scanRun single fuel ('\x27' :: read) (c.skip 2)
        else some (read.reverse, false, c)
      else if !single && x = '"' then some (read.reverse, false, c)
      else if !single && x = '\\' then
        if (rest.head?.map isBreak).getD false then
          some (read.reverse, true, (c.skip 1).skipBreak)
        else
          match escape? rest with
          | some (y, length) => scanRun single fuel (y :: read) (c.skip (1 + length))
          | none => none
      else scanRun single fuel (x :: read) (c.skip 1)

/-- A quoted scalar after its opening mark: its text and the place after its closing
mark. -/
def scan (single : Bool) : (fuel : Nat) → (read : List Char) → Cursor →
    Option (List Char × Cursor)
  | 0, _, _ => none
  | fuel + 1, read, c =>
    if c.isDocumentMarker || c.rest.isEmpty then none
    else
      match scanRun single (c.rest.length + 1) [] c with
      | none => none
      | some (run, escaped, after) =>
        if after.sees 0 (if single then '\x27' else '"') then
          some (read ++ run, after.skip 1)
        else
          let start : Spacing := if escaped then { first := some [] } else {}
          match scanSpacing 0 (after.rest.length + 1) start after with
          | none => none
          | some (s, after) => scan single fuel (read ++ run ++ s.text) after

end Quoted

namespace Block

/-- What becomes of the line ends at the end of a block. -/
inductive Chomping where
  | strip
  | clip
  | keep
deriving DecidableEq, Repr

/-- An optional digit other than zero, with the number of characters that write it. -/
def headerDigit : List Char → Option (Nat × Nat)
  | '0' :: _ => none
  | c :: _ => some (if isDigit c then (digitValue c, 1) else (0, 0))
  | [] => some (0, 0)

/-- The header of a block: what becomes of its end, its indentation or zero if none is
given, and the number of characters that write it. -/
def header : List Char → Option (Chomping × Nat × Nat)
  | '+' :: rest => (headerDigit rest).map fun (n, length) => (.keep, n, 1 + length)
  | '-' :: rest => (headerDigit rest).map fun (n, length) => (.strip, n, 1 + length)
  | cs =>
    match headerDigit cs with
    | some (n, 1) =>
      match cs.drop 1 with
      | '+' :: _ => some (.keep, n, 2)
      | '-' :: _ => some (.strip, n, 2)
      | _ => some (.clip, n, 1)
    | some (n, length) => some (.clip, n, length)
    | none => none

/-- Passes indentation and empty lines; `indent` is zero as long as the indentation is to be
found.  Returns the line ends, the widest indentation and the place after them. -/
def scanBreaks (indent : Nat) : (fuel : Nat) → (widest : Nat) → (breaks : List Char) →
    Cursor → Option (List Char × Nat × Cursor)
  | 0, _, _, _ => none
  | fuel + 1, widest, breaks, c =>
    let spaces := (c.rest.takeWhile (· = ' ')).length
    let c := c.skip (if indent = 0 then spaces else min spaces (indent - c.column))
    let widest := max widest c.column
    match c.rest with
    | [] => some (breaks, widest, c)
    | x :: _ =>
      if x = '\t' && (indent = 0 || c.column < indent) then none
      else if isBreak x then scanBreaks indent fuel widest (breaks ++ c.breakText) c.skipBreak
      else some (breaks, widest, c)

/-- The lines of a block.  `lead` is the end of the last line, `further` the line ends after
it, and `indented` tells whether the last line started with a blank. -/
def scanLines (literal : Bool) (chomping : Chomping) (indent : Nat) : (fuel : Nat) →
    (read lead further : List Char) → (indented : Bool) → Cursor →
    Option (List Char × Cursor)
  | 0, _, _, _, _, _ => none
  | fuel + 1, read, lead, further, indented, c =>
    if c.column != indent || c.rest.isEmpty then
      let lead := if chomping = .strip then [] else lead
      let further := if chomping = .keep then further else []
      some (read ++ lead ++ further, c)
    else
      let blank := (c.rest.head?.map isBlank).getD false
      let joint :=
        if !literal && lead = ['\n'] && !indented && !blank then
          if further.isEmpty then [' '] else []
        else lead
      let line := c.rest.takeWhile fun x => !isBreak x
      let atEnd := c.skipLine
      let lead := atEnd.breakText
      match scanBreaks indent (c.rest.length + 1) 0 [] atEnd.skipBreak with
      | none => none
      | some (breaks, _, after) =>
        scanLines literal chomping indent fuel (read ++ joint ++ further ++ line) lead breaks
          blank after

/-- A block scalar after its mark, inside a node with the given indentation. -/
def scan (literal : Bool) (indent : Int) (c : Cursor) : Option (List Char × Cursor) := do
  let (chomping, increment, length) ← header c.rest
  let c := (c.skip length).skipWhile isBlank
  let c := if c.sees 0 '#' then c.skipLine else c
  if !c.isLineEnd then none
  else
    let c := c.skipBreak
    let fuel := c.rest.length + 1
    let given := if increment = 0 then 0 else (max indent 0).toNat + increment
    let (breaks, widest, c) ← scanBreaks given fuel 0 [] c
    let found := if given = 0 then max (max widest (indent + 1).toNat) 1 else given
    scanLines literal chomping found fuel [] [] breaks false c

end Block

end ElementFinder.Yaml
