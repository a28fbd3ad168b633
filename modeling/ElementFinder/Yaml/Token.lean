import ElementFinder.Yaml.Scalar

/-!
# Tokens of YAML

A text is cut into tokens from left to right.  Outside brackets the indentation opens and
closes collections, and the start of a key is only known once its colon is found: every
place where a key may start is kept until then, and the key is put in there afterwards.  A
key stands on one line and is at most 1024 characters long.

Tokens from the place of an undecided key on are not handed out, so they are lost when the
text breaks off behind it.
-/

namespace ElementFinder.Yaml

/-- A token. -/
inductive Token where
  | version (supported : Bool)
  | tagRule (handle expansion : String)
  | documentStart
  | documentEnd
  | blockSequence
  | blockMapping
  | blockEnd
  | flowSequence
  | flowSequenceEnd
  | flowMapping
  | flowMappingEnd
  | blockEntry
  | flowEntry
  | key
  | value
  | alias (name : String)
  | anchor (name : String)
  | tag (handle suffix : String)
  | scalar (content : String) (style : ScalarStyle)
deriving DecidableEq

/-- A place where a key may have started: the number of tokens before it, and whether there
must be a key because the place stands at the indentation. -/
structure KeyPlace where
  required : Bool
  token : Nat
  place : Cursor

/-- The state of cutting: the tokens so far, the open indentations with the current one
first, the place of a possible key for each open bracket and for the outside, the innermost
first, and whether a key may start next. -/
structure Lexer where
  cursor : Cursor
  tokens : Array Token := #[]
  indents : List Nat := []
  keys : List (Option KeyPlace) := [none]
  keyAllowed : Bool := true

namespace Lexer

/-- Whether brackets are open. -/
def inFlow (s : Lexer) : Bool :=
  1 < s.keys.length

/-- The current indentation; there is none before the first block. -/
def indent (s : Lexer) : Int :=
  match s.indents with
  | [] => -1
  | n :: _ => n

/-- Adds a token. -/
def emit (s : Lexer) (t : Token) : Lexer :=
  { s with tokens := s.tokens.push t }

/-- Adds a token that is written by the next characters. -/
def emitMark (s : Lexer) (t : Token) (length : Nat) : Lexer :=
  { s.emit t with cursor := s.cursor.skip length }

/-- Closes the blocks that are indented further than a column. -/
def unroll (column : Int) : List Nat → Array Token → List Nat × Array Token
  | [], tokens => ([], tokens)
  | n :: rest, tokens =>
    if column < n then unroll column rest (tokens.push .blockEnd) else (n :: rest, tokens)

/-- Closes the blocks that are indented further than a column, unless brackets are open. -/
def unrollTo (s : Lexer) (column : Int) : Lexer :=
  if s.inFlow then s
  else
    let (indents, tokens) := unroll column s.indents s.tokens
    { s with indents := indents, tokens := tokens }

/-- Opens a block at a column that is indented further, unless brackets are open.  The token
is put in at a place among the tokens. -/
def rollTo (s : Lexer) (column place : Nat) (t : Token) : Lexer :=
  if s.inFlow || column ≤ s.indent then s
  else { s with indents := column :: s.indents, tokens := s.tokens.insertIdxIfInBounds place t }

/-- Gives up the place of the innermost possible key; a required key must not be given
up. -/
def dropKey (s : Lexer) : Option Lexer :=
  match s.keys with
  | some k :: rest => if k.required then none else some { s with keys := none :: rest }
  | _ => some s

/-- Keeps the current place as that of a possible key. -/
def keepKey (s : Lexer) : Option Lexer :=
  if s.keyAllowed then
    s.dropKey.map fun s =>
      let k : KeyPlace := ⟨!s.inFlow && s.indent = s.cursor.column, s.tokens.size, s.cursor⟩
      { s with keys := some k :: s.keys.drop 1 }
  else some s

/-- Whether the place of a key is too far back. -/
def isStale (c : Cursor) (k : KeyPlace) : Bool :=
  k.place.line < c.line || k.place.index + 1024 < c.index

/-- Gives up the places of keys that are too far back. -/
def dropStale (s : Lexer) : Option Lexer :=
  let stale : Option KeyPlace → Bool
    | some k => isStale s.cursor k
    | none => false
  if s.keys.any fun k => stale k && (k.map KeyPlace.required).getD false then none
  else some { s with keys := s.keys.map fun k => if stale k then none else k }

/-- Passes blanks, comments and line ends before a token.  Tabulators are not passed where a
key may start in a block. -/
def skipGap : (fuel : Nat) → Lexer → Lexer
  | 0, s => s
  | fuel + 1, s =>
    let tabs := s.inFlow || !s.keyAllowed
    let c := s.cursor.skipWhile fun x => x = ' ' || (tabs && x = '\t')
    let c := if c.sees 0 '#' then c.skipLine else c
    match c.rest with
    | [] => { s with cursor := c }
    | x :: _ =>
      if isBreak x then
        skipGap fuel { s with cursor := c.skipBreak, keyAllowed := s.keyAllowed || !s.inFlow }
      else { s with cursor := c }

/-- Whether a character may be part of an anchor or of the handle of a tag. -/
def isWordChar (c : Char) : Bool :=
  isDigit c || ('a' ≤ c && c ≤ 'z') || ('A' ≤ c && c ≤ 'Z') || c = '_' || c = '-'

/-- Whether a character may be part of the suffix of a tag. -/
def isTagChar (c : Char) : Bool :=
  isWordChar c || [';', '/', '?', ':', '@', '&', '=', '+', '$', '.', '%', '!', '~', '*', '\x27',
    '(', ')'].contains c

/-- Whether a character may be part of a tag between angle brackets. -/
def isUriChar (c : Char) : Bool :=
  isTagChar c || c = ',' || c = '[' || c = ']'

/-- Ends blocks and possible keys before a document starts or ends. -/
def endBlocks (s : Lexer) : Option Lexer :=
  (s.unrollTo (-1)).dropKey.map fun s => { s with keyAllowed := false }

/-- An alias or anchor. -/
def scanName (s : Lexer) (token : String → Token) : Option Lexer :=
  s.keepKey.bind fun s =>
    let name := (s.cursor.rest.drop 1).takeWhile isWordChar
    let after := s.cursor.skip (1 + name.length)
    let ends := after.isGap 0 || (after.rest.head?.map fun x =>
      ['?', ':', ',', ']', '\x7d', '%', '@', '\x60'].contains x).getD false
    if name.isEmpty || !ends then none
    else some { s with
      cursor := after, tokens := s.tokens.push (token (String.ofList name)), keyAllowed := false }

/-- The tag at the start of a text, with the number of characters that write it. -/
def takeTag : List Char → Option (Token × Nat)
  | '!' :: '<' :: rest =>
    let uri := rest.takeWhile isUriChar
    if uri.isEmpty || (rest.drop uri.length).head? != some '>' then none
    else some (.tag "" (String.ofList uri), uri.length + 3)
  | '!' :: rest =>
    let word := rest.takeWhile isWordChar
    if (rest.drop word.length).head? = some '!' then
      let suffix := (rest.drop (word.length + 1)).takeWhile isTagChar
      if suffix.isEmpty then none
      else some (.tag (String.ofList ('!' :: word ++ ['!'])) (String.ofList suffix),
        word.length + suffix.length + 2)
    else
      let suffix := rest.takeWhile isTagChar
      if suffix.isEmpty then some (.tag "" "!", 1)
      else some (.tag "!" (String.ofList suffix), 1 + suffix.length)
  | _ => none

/-- A tag. -/
def scanTag (s : Lexer) : Option Lexer :=
  s.keepKey.bind fun s =>
    match takeTag s.cursor.rest with
    | none => none
    | some (t, length) =>
      let s := { s.emitMark t length with keyAllowed := false }
      if s.cursor.isGap 0 || (s.inFlow && s.cursor.sees 0 ',') then some s else none

/-- A directive: the version of the language or a rule for tags. -/
def scanDirective (s : Lexer) : Option Lexer :=
  s.endBlocks.bind fun s =>
    let line := s.cursor.rest.takeWhile fun x => !isBreak x
    let words := ((String.ofList (line.takeWhile (· != '#'))).splitOn " ").filter (· != "")
    let s := { s with cursor := s.cursor.skipLine }
    match words with
    | ["%YAML", v] => some (s.emit (.version (v = "1.1" || v = "1.2")))
    | ["%TAG", handle, expansion] => some (s.emit (.tagRule handle expansion))
    | _ => none

/-- A marker of three characters. -/
def scanMarker (s : Lexer) (t : Token) : Option Lexer :=
  s.endBlocks.map fun s => s.emitMark t 3

/-- An opening bracket. -/
def scanOpening (s : Lexer) (t : Token) : Option Lexer :=
  s.keepKey.map fun s => { s.emitMark t 1 with keys := none :: s.keys, keyAllowed := true }

/-- A closing bracket. -/
def scanClosing (s : Lexer) (t : Token) : Option Lexer :=
  s.dropKey.map fun s =>
    { s.emitMark t 1 with
      keys := if s.inFlow then s.keys.drop 1 else s.keys, keyAllowed := false }

/-- A comma. -/
def scanComma (s : Lexer) : Option Lexer :=
  s.dropKey.map fun s => { s.emitMark .flowEntry 1 with keyAllowed := true }

/-- A dash or question mark, which opens a block at its column. -/
def scanIndicator (s : Lexer) (block mark : Token) (keyAllowed : Bool) : Option Lexer :=
  if !s.inFlow && !s.keyAllowed then none
  else
    (s.rollTo s.cursor.column s.tokens.size block).dropKey.map fun s =>
      { s.emitMark mark 1 with keyAllowed := keyAllowed }

/-- A colon.  It ends a possible key, or stands on its own where a key could stand. -/
def scanColon (s : Lexer) : Option Lexer :=
  match s.keys with
  | some k :: rest =>
    let s := { s with keys := none :: rest, tokens := s.tokens.insertIdxIfInBounds k.token .key }
    let s := s.rollTo k.place.column k.token .blockMapping
    some { s.emitMark .value 1 with keyAllowed := false }
  | _ =>
    if !s.inFlow && !s.keyAllowed then none
    else
      let s := s.rollTo s.cursor.column s.tokens.size .blockMapping
      some { s.emitMark .value 1 with keyAllowed := !s.inFlow }

/-- A block scalar. -/
def scanBlock (s : Lexer) (literal : Bool) : Option Lexer := do
  let s ← s.dropKey
  let (content, after) ← Block.scan literal s.indent (s.cursor.skip 1)
  let style := if literal then ScalarStyle.literal else .quoted
  return { s.emit (.scalar (String.ofList content) style) with
    cursor := after, keyAllowed := true }

/-- A quoted scalar. -/
def scanQuoted (s : Lexer) (single : Bool) : Option Lexer := do
  let s ← s.keepKey
  let (content, after) ← Quoted.scan single (s.cursor.rest.length + 1) [] (s.cursor.skip 1)
  return { s.emit (.scalar (String.ofList content) .quoted) with
    cursor := after, keyAllowed := false }

/-- A plain scalar. -/
def scanPlain (s : Lexer) : Option Lexer := do
  let s ← s.keepKey
  let (content, endsLine, after) ←
    Plain.scan s.inFlow (s.indent + 1) (s.cursor.rest.length + 1) [] {} s.cursor
  return { s.emit (.scalar (String.ofList content) .plain) with
    cursor := after, keyAllowed := endsLine }

/-- The marks that no plain scalar starts with. -/
def reserved : List Char :=
  ['-', '?', ':', ',', '[', ']', '\x7b', '\x7d', '#', '&', '*', '!', '|', '>', '\x27', '"', '%',
   '@', '\x60']

/-- Whether a plain scalar may start here. -/
def startsPlain (s : Lexer) (x : Char) : Bool :=
  let c := s.cursor
  (!isBlank x && !isBreak x && !reserved.contains x) ||
    (x = '-' && !((c.peek 1).map isBlank).getD false) ||
    (!s.inFlow && (x = '?' || x = ':') && !c.isGap 1)

/-- The token that starts with a character. -/
def scanToken (s : Lexer) (x : Char) : Option Lexer :=
  let c := s.cursor
  if c.column = 0 && x = '%' then s.scanDirective
  else if c.isMarker '-' then s.scanMarker .documentStart
  else if c.isMarker '.' then s.scanMarker .documentEnd
  else if x = '[' then s.scanOpening .flowSequence
  else if x = '\x7b' then s.scanOpening .flowMapping
  else if x = ']' then s.scanClosing .flowSequenceEnd
  else if x = '\x7d' then s.scanClosing .flowMappingEnd
  else if x = ',' then s.scanComma
  else if x = '-' && c.isGap 1 then s.scanIndicator .blockSequence .blockEntry true
  else if x = '?' && (s.inFlow || c.isGap 1) then
    s.scanIndicator .blockMapping .key (!s.inFlow)
  else if x = ':' && (s.inFlow || c.isGap 1) then s.scanColon
  else if x = '*' then s.scanName .alias
  else if x = '&' then s.scanName .anchor
  else if x = '!' then s.scanTag
  else if x = '|' && !s.inFlow then s.scanBlock true
  else if x = '>' && !s.inFlow then s.scanBlock false
  else if x = '\x27' then s.scanQuoted true
  else if x = '"' then s.scanQuoted false
  else if s.startsPlain x then s.scanPlain
  else none

/-- The tokens that have been handed out when the text breaks off. -/
def handedOut (s : Lexer) : List Token :=
  let undecided := s.keys.filterMap fun k => k.map KeyPlace.token
  s.tokens.toList.take (undecided.foldl min s.tokens.size)

/-- Cuts the rest of the text, and tells whether it was cut to its end. -/
def run : (fuel : Nat) → Lexer → List Token × Bool
  | 0, s => (s.handedOut, false)
  | fuel + 1, s =>
    match (skipGap (s.cursor.rest.length + 1) s).dropStale with
    | none => (s.handedOut, false)
    | some s =>
      let s := s.unrollTo s.cursor.column
      match s.cursor.rest with
      | [] =>
        match ((s.unrollTo (-1)).dropKey) with
        | none => (s.handedOut, false)
        | some s => (s.tokens.toList, true)
      | x :: _ =>
        match s.scanToken x with
        | none => (s.handedOut, false)
        | some s => run fuel s

end Lexer

/-- The tokens of a text, and whether the text could be cut to its end. -/
def Token.ofText (text : String) : List Token × Bool :=
  let cs := text.toList
  let cs := match cs with
    | c :: rest => if c.toNat = 0xFEFF then rest else cs
    | [] => cs
  if cs.all isAllowed then Lexer.run (cs.length + 1) { cursor := { rest := cs } } else ([], false)

end ElementFinder.Yaml
