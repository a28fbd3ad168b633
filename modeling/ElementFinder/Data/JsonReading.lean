import ElementFinder.Data.JsonNumber

/-!
# Reading JSON

`Data.ofJson` reads a JSON text.  Values nest at most 127 deep.  Where the text stops being
JSON the value ends in the leaf `malformed`, and everything before it is kept.
-/

namespace ElementFinder

namespace JsonReading

/-- The four blanks of JSON. -/
def isSpace (c : Char) : Bool :=
  c = ' ' || c = '\n' || c = '\t' || c = '\r'

/-- The value of a hexadecimal digit. -/
def hexValue? (c : Char) : Option Nat :=
  if isDigit c then some (digitValue c)
  else if 'a' ≤ c && c ≤ 'f' then some (c.toNat - 'a'.toNat + 10)
  else if 'A' ≤ c && c ≤ 'F' then some (c.toNat - 'A'.toNat + 10)
  else none

/-- Four hexadecimal digits. -/
def readUnit : List Char → Option (Nat × List Char)
  | a :: b :: c :: d :: rest =>
    match hexValue? a, hexValue? b, hexValue? c, hexValue? d with
    | some a, some b, some c, some d => some (((a * 16 + b) * 16 + c) * 16 + d, rest)
    | _, _, _, _ => none
  | _ => none

/-- The character after `\u`; characters beyond 16 bits are written as two units. -/
def readUnicode (cs : List Char) : Option (Char × List Char) :=
  match readUnit cs with
  | none => none
  | some (high, rest) =>
    if 0xDC00 ≤ high && high < 0xE000 then none
    else if 0xD800 ≤ high && high < 0xDC00 then
      match rest with
      | '\\' :: 'u' :: rest =>
        match readUnit rest with
        | some (low, rest) =>
          if 0xDC00 ≤ low && low < 0xE000 then
            some (Char.ofNat (0x10000 + (high - 0xD800) * 0x400 + (low - 0xDC00)), rest)
          else none
        | none => none
      | _ => none
    else some (Char.ofNat high, rest)

/-- The character after a backslash. -/
def readEscape : List Char → Option (Char × List Char)
  | '"' :: rest => some ('"', rest)
  | '\\' :: rest => some ('\\', rest)
  | '/' :: rest => some ('/', rest)
  | 'b' :: rest => some (Char.ofNat 8, rest)
  | 'f' :: rest => some (Char.ofNat 12, rest)
  | 'n' :: rest => some ('\n', rest)
  | 'r' :: rest => some ('\r', rest)
  | 't' :: rest => some ('\t', rest)
  | 'u' :: rest => readUnicode rest
  | _ => none

/-- The rest of a string after its opening quotation mark; control characters must be
escaped. -/
def readString : (fuel : Nat) → (read : List Char) → List Char → Option (String × List Char)
  | 0, _, _ => none
  | _ + 1, _, [] => none
  | _ + 1, read, '"' :: rest => some (String.ofList read.reverse, rest)
  | fuel + 1, read, '\\' :: rest =>
    match readEscape rest with
    | some (c, rest) => readString fuel (c :: read) rest
    | none => none
  | fuel + 1, read, c :: rest =>
    if c.toNat < 32 then none else readString fuel (c :: read) rest

/-- What a reader returns: the value and, unless the text broke off, what follows it. -/
abbrev Outcome (α : Type) := α × Option (List Char)

/-- A value in full letters. -/
def readWord (word : String) (value : Data) (cs : List Char) : Outcome Data :=
  if word.toList.isPrefixOf cs then (value, some (cs.drop word.length))
  else (.malformed, none)

mutual

/-- Reads a value; `depth` counts the levels that may still be opened. -/
def readValue : (fuel depth : Nat) → List Char → Outcome Data
  | 0, _, _ => (.malformed, none)
  | fuel + 1, depth, cs =>
    match cs.dropWhile isSpace with
    | '[' :: rest =>
      match depth with
      | 0 => (.malformed, none)
      | depth + 1 =>
        let (items, rest) := readItems fuel depth true rest
        (.list items, rest)
    | '\x7b' :: rest =>
      match depth with
      | 0 => (.malformed, none)
      | depth + 1 =>
        let (entries, rest) := readEntries fuel depth true rest
        (.record entries, rest)
    | '"' :: rest =>
      match readString (rest.length + 1) [] rest with
      | some (s, rest) => (.text s, some rest)
      | none => (.malformed, none)
    | 'n' :: rest => readWord "ull" .null rest
    | 't' :: rest => readWord "rue" (.bool true) rest
    | 'f' :: rest => readWord "alse" (.bool false) rest
    | cs =>
      match JsonNumber.read cs with
      | some (d, rest) => (d, some rest)
      | none => (.malformed, none)

/-- Reads the items of a list up to its closing bracket. -/
def readItems : (fuel depth : Nat) → (first : Bool) → List Char → Outcome (List Data)
  | 0, _, _, _ => ([.malformed], none)
  | fuel + 1, depth, first, cs =>
    let more (cs : List Char) : Outcome (List Data) :=
      match readValue fuel depth cs with
      | (d, none) => ([d], none)
      | (d, some rest) =>
        let (items, rest) := readItems fuel depth false rest
        (d :: items, rest)
    match cs.dropWhile isSpace, first with
    | ']' :: rest, _ => ([], some rest)
    | cs, true => more cs
    | ',' :: rest, false => more rest
    | _, false => ([.malformed], none)

/-- Reads the entries of a record up to its closing brace. -/
def readEntries : (fuel depth : Nat) → (first : Bool) → List Char → Outcome (List (Data × Data))
  | 0, _, _, _ => ([(.malformed, .malformed)], none)
  | fuel + 1, depth, first, cs =>
    let broken : Outcome (List (Data × Data)) := ([(.malformed, .malformed)], none)
    let more (cs : List Char) : Outcome (List (Data × Data)) :=
      match cs.dropWhile isSpace with
      | '"' :: rest =>
        match readString (rest.length + 1) [] rest with
        | none => broken
        | some (key, rest) =>
          match rest.dropWhile isSpace with
          | ':' :: rest =>
            match readValue fuel depth rest with
            | (d, none) => ([(.text key, d)], none)
            | (d, some rest) =>
              let (entries, rest) := readEntries fuel depth false rest
              ((.text key, d) :: entries, rest)
          | _ => ([(.text key, .malformed)], none)
      | _ => broken
    match cs.dropWhile isSpace, first with
    | '\x7d' :: rest, _ => ([], some rest)
    | cs, true => more cs
    | ',' :: rest, false => more rest
    | _, false => broken

end

end JsonReading

/-- A text read as data: the value, and whether something other than blanks follows it. -/
structure Document where
  value : Data
  hasTrailer : Bool

/-- Reads a JSON text. -/
def Document.ofJson (text : String) : Document :=
  let cs := text.toList
  match JsonReading.readValue (2 * cs.length + 2) 127 cs with
  | (d, some rest) => ⟨d, !(rest.all JsonReading.isSpace)⟩
  | (d, none) => ⟨d, false⟩

end ElementFinder
