import ElementFinder.Data.JsonReading
import ElementFinder.Pattern.Flags
import ElementFinder.Pattern.PropertyName
import ElementFinder.Text.Search

/-!
# Escapes in patterns

What follows a backslash in a pattern: a character that would otherwise have a meaning, a
character by its code, a class of characters, or a condition on the position.
-/

namespace ElementFinder.PatternEscape

/-- What an escape stands for. -/
inductive Meaning where
  | literal (c : Char)
  | set (s : CharSet)
  | look (l : Look)

/-- Skips blanks and comments, which end with the line. -/
def skipSpace (inComment : Bool) : List Char → List Char
  | [] => []
  | c :: rest =>
    if inComment then skipSpace (c != '\n') rest
    else if isBlank c then skipSpace false rest
    else if c = '#' then skipSpace true rest
    else c :: rest

/-- Skips blanks and comments if the flags say so. -/
def skip (f : PatternFlags) (cs : List Char) : List Char :=
  if f.spaced then skipSpace false cs else cs

/-- The characters that have a meaning in patterns. -/
def isMeta (c : Char) : Bool :=
  ['\\', '.', '+', '*', '?', '(', ')', '|', '[', ']', '\x7b', '\x7d', '^', '$', '#', '&', '-',
   '~'].contains c

/-- The characters that stand for themselves after a backslash. -/
def isPlain (c : Char) : Bool :=
  isMeta c ||
    (c.toNat < 128 && !(isDigit c) && !('a' ≤ c && c ≤ 'z') && !('A' ≤ c && c ≤ 'Z') &&
      c != '<' && c != '>')

/-- The character with a code. -/
def charOfCode? (code : Nat) : Option Char :=
  if code < 0xD800 || (0xE000 ≤ code && code < 0x110000) then some (Char.ofNat code) else none

/-- The number that hexadecimal digits write. -/
def hexValue (ds : List Char) : Option Nat :=
  ds.foldl (fun n c => do return 16 * (← n) + (← JsonReading.hexValue? c)) (some 0)

/-- Takes a number of characters, with blanks between them where they are left out. -/
def takeDigits (f : PatternFlags) : Nat → List Char → Option (List Char × List Char)
  | 0, cs => some ([], cs)
  | _ + 1, [] => none
  | n + 1, c :: cs => do
    let (ds, rest) ← takeDigits f n (if n = 0 then cs else skip f cs)
    return (c :: ds, rest)

/-- The characters up to a closing brace, without the blanks that are left out. -/
def takeBraced (f : PatternFlags) : (fuel : Nat) → List Char → Option (List Char × List Char)
  | 0, _ => none
  | fuel + 1, cs =>
    match skip f cs with
    | [] => none
    | '\x7d' :: rest => some ([], rest)
    | c :: rest => do
      let (ds, rest) ← takeBraced f fuel rest
      return (c :: ds, rest)

/-- A character by its code: a fixed number of digits, or any number between braces.  Where
only the first 128 characters are allowed, two digits name none beyond them. -/
def readCode (f : PatternFlags) (count : Nat) (cs : List Char) : Option (Char × List Char) := do
  match skip f cs with
  | [] => none
  | '\x7b' :: rest =>
    let (ds, rest) ← takeBraced f (rest.length + 1) rest
    if ds.isEmpty then none
    let c ← charOfCode? (← hexValue ds)
    return (c, rest)
  | cs =>
    let (ds, rest) ← takeDigits f count cs
    let c ← charOfCode? (← hexValue ds)
    if !f.wide && count = 2 && 128 ≤ c.toNat then none else return (c, rest)

/-- The set between the braces of a property escape. -/
def propertyNamed (body : List Char) : Option CharSet :=
  match splitAtFirst? ['!', '='] body with
  | some (name, value) => (PropertyName.valued? name value).map .complement
  | none =>
    match splitAtFirst? [':'] body with
    | some (name, value) => PropertyName.valued? name value
    | none =>
      match splitAtFirst? ['='] body with
      | some (name, value) => PropertyName.valued? name value
      | none => PropertyName.single? body

/-- The set of a property, by one letter or by a name between braces. -/
def readPropertyName (f : PatternFlags) (cs : List Char) : Option (CharSet × List Char) :=
  match skip f cs with
  | [] => none
  | '\x7b' :: rest =>
    (takeBraced f (rest.length + 1) rest).bind fun (body, rest) =>
      (propertyNamed body).map fun s => (s, rest)
  | '\\' :: _ => none
  | c :: rest => (PropertyName.single? [c]).map fun s => (s, rest)

/-- A property or, with a capital letter, what lacks it. -/
def readProperty (f : PatternFlags) (negated : Bool) (cs : List Char) :
    Option (CharSet × List Char) :=
  if !f.wide then none
  else
    (readPropertyName f cs).map fun (s, rest) =>
      let s := f.fold s
      (if negated then .complement s else s, rest)

/-- The names of conditions between braces. -/
def boundaryNamed (words : CharSet) : String → Option Look
  | "start" => some (.wordStart words)
  | "end" => some (.wordEnd words)
  | "start-half" => some (.halfStart words)
  | "end-half" => some (.halfEnd words)
  | _ => none

/-- Whether a character may stand in the name of a condition. -/
def isBoundaryChar (c : Char) : Bool :=
  ('a' ≤ c && c ≤ 'z') || ('A' ≤ c && c ≤ 'Z') || c = '-'

/-- A word boundary, of a special kind when its name follows between braces. -/
def readBoundary (f : PatternFlags) (cs : List Char) : Option (Look × List Char) := do
  match cs with
  | '\x7b' :: rest =>
    match skip f rest with
    | [] => none
    | c :: tail =>
      if !isBoundaryChar c then return (.boundary f.words, cs)
      else
        let (body, rest) ← takeBraced f (rest.length + 1) (c :: tail)
        let l ← boundaryNamed f.words (String.ofList body)
        return (l, rest)
  | cs => return (.boundary f.words, cs)

/-- Reads what follows a backslash. -/
def read (f : PatternFlags) : List Char → Option (Meaning × List Char)
  | [] => none
  | c :: rest =>
    match c with
    | 'x' => (readCode f 2 rest).map fun (c, rest) => (.literal c, rest)
    | 'u' => (readCode f 4 rest).map fun (c, rest) => (.literal c, rest)
    | 'U' => (readCode f 8 rest).map fun (c, rest) => (.literal c, rest)
    | 'p' => (readProperty f false rest).map fun (s, rest) => (.set s, rest)
    | 'P' => (readProperty f true rest).map fun (s, rest) => (.set s, rest)
    | 'a' => some (.literal (Char.ofNat 7), rest)
    | 'f' => some (.literal (Char.ofNat 12), rest)
    | 't' => some (.literal '\t', rest)
    | 'n' => some (.literal '\n', rest)
    | 'r' => some (.literal '\r', rest)
    | 'v' => some (.literal (Char.ofNat 11), rest)
    | 'A' => some (.look .textStart, rest)
    | 'z' => some (.look .textEnd, rest)
    | 'b' => (readBoundary f rest).map fun (l, rest) => (.look l, rest)
    | 'B' => some (.look (.noBoundary f.words), rest)
    | '<' => some (.look (.wordStart f.words), rest)
    | '>' => some (.look (.wordEnd f.words), rest)
    | c =>
      match f.shorthand? c with
      | some s => some (.set s, rest)
      | none => if isPlain c then some (.literal c, rest) else none

end ElementFinder.PatternEscape
