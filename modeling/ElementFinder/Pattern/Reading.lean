import ElementFinder.Pattern.BracketSet
import ElementFinder.Text.Property

/-!
# Reading patterns

`Pattern.ofText?` reads a pattern in the usual notation: alternatives, repetitions, groups,
sets, escapes, conditions and flags.  Groups only group.  Conditions on what is ahead or
behind and references to groups do not exist.  Nesting and size are limited, so that
matching stays cheap.
-/

namespace ElementFinder

namespace Pattern

/-- Whether only the empty text can match. -/
def matchesOnlyEmpty : Pattern → Bool
  | empty => true
  | one _ => false
  | look _ => true
  | seq p q => p.matchesOnlyEmpty && q.matchesOnlyEmpty
  | alt p q => p.matchesOnlyEmpty && q.matchesOnlyEmpty
  | repeated p _ most => p.matchesOnlyEmpty || most = some 0

/-- Repetitions of a pattern; what matches only the empty text needs no second
repetition. -/
def repeating (p : Pattern) (least : Nat) (most : Option Nat) : Pattern :=
  if p.matchesOnlyEmpty then
    repeated p (min least 1) (some (match most with | some most => min most 1 | none => 1))
  else repeated p least most

end Pattern

/-- An estimate of the number of ranges of a set. -/
def CharSet.extent : CharSet → Nat
  | ranges items => if items.all (fun r => r.2 < 128) then 1 else 2 * items.length
  | categories items => if items = [.Nd] then 80 else 400
  | script _ => 20
  | complement s => s.extent + 8
  | union s t => s.extent + t.extent
  | inter s t => min s.extent t.extent
  | diff s t => s.extent + t.extent
  | symmDiff s t => s.extent + t.extent
  | folded s => s.extent + 1
  | foldedLatin s => s.extent

/-- An estimate of the memory that a pattern takes when its repetitions are written out. -/
def Pattern.weight : Pattern → Nat
  | empty => 0
  | one set => 32 * set.extent
  | look _ => 32
  | seq p q => p.weight + q.weight
  | alt p q => p.weight + q.weight + 32
  | repeated p least most =>
    match most with
    | some most => (p.weight + 8) * most + 32
    | none => p.weight * max least 1 + 32

namespace PatternReading

open PatternEscape

/-- The deepest nesting of a pattern. -/
def nestingLimit : Nat := 250

/-- The largest weight of a pattern. -/
def weightLimit : Nat := 10 * Nat.pow 2 20

/-- Where a reader stands: the flags in force, the group names used and the rest of the
text. -/
structure Cursor where
  flags : PatternFlags
  names : List String
  rest : List Char

/-- A part of a sequence: a pattern with its height, or a change of flags. -/
inductive Item where
  | part (p : Pattern) (height : Nat)
  | flags

/-- The pattern of a part and its height. -/
def Item.pattern : Item → Pattern × Nat
  | part p height => (p, height)
  | flags => (.empty, 0)

/-- A sequence of parts, the last one first; more than one part counts as a level. -/
def sequence (items : List Item) : Pattern × Nat :=
  match items.map Item.pattern with
  | [] => (.empty, 0)
  | [(p, height)] => (p, height)
  | (p, height) :: earlier =>
    earlier.foldl (fun (q, h) (p, height) => (.seq p q, max h (height + 1))) (p, height + 1)

/-- Alternatives, the last one first; more than one count as a level. -/
def alternatives (branches : List (Pattern × Nat)) : Pattern × Nat :=
  match branches with
  | [] => (.empty, 0)
  | [(p, height)] => (p, height)
  | (p, height) :: earlier =>
    earlier.foldl (fun (q, h) (p, height) => (.alt p q, max h (height + 1))) (p, height + 1)

/-- Flag letters up to a colon or a closing parenthesis.  A letter stands at most once, and
a single minus sign turns off the letters after it. -/
def readFlags : (cs : List Char) → (seen : List Char) → (on fresh : Bool) → PatternFlags →
    Option (PatternFlags × List Char)
  | [], _, _, _, _ => none
  | c :: rest, seen, on, fresh, f =>
    if c = ':' || c = ')' then
      if !on && fresh then none else some (f, c :: rest)
    else if c = '-' then
      if on then readFlags rest seen false true f else none
    else if seen.contains c then none
    else
      match f.setLetter c on with
      | none => none
      | some f => readFlags rest (c :: seen) on false f

/-- Whether a character may start the name of a group. -/
def isNameStart (c : Char) : Bool :=
  c = '_' || CodeTable.contains CharProperty.alphabetic c.toNat

/-- Whether a character may continue the name of a group. -/
def isNameChar (c : Char) : Bool :=
  isNameStart c || c = '.' || c = '[' || c = ']' ||
    match GeneralCategory.ofCode c.toNat with
    | .Nd | .Nl | .No => true
    | _ => false

/-- The name of a group up to its closing bracket; names differ from each other. -/
def readName (names : List String) (cs : List Char) : Option (String × List Char) :=
  let name := cs.takeWhile (· != '>')
  match cs.dropWhile (· != '>'), name with
  | '>' :: rest, first :: others =>
    if isNameStart first && others.all isNameChar && !names.contains (String.ofList name) then
      some (String.ofList name, rest)
    else none
  | _, _ => none

/-- What an opening parenthesis starts. -/
inductive Opening where
  | group (flags : PatternFlags) (names : List String)
  | flags (flags : PatternFlags)

/-- Reads what follows an opening parenthesis. -/
def readOpening (c : Cursor) (cs : List Char) : Option (Opening × List Char) :=
  let named (cs : List Char) :=
    (readName c.names cs).map fun (name, rest) => (Opening.group c.flags (name :: c.names), rest)
  match cs with
  | '?' :: '=' :: _ => none
  | '?' :: '!' :: _ => none
  | '?' :: '<' :: '=' :: _ => none
  | '?' :: '<' :: '!' :: _ => none
  | '?' :: 'P' :: '<' :: rest => named rest
  | '?' :: '<' :: rest => named rest
  | '?' :: rest =>
    match readFlags rest [] true false c.flags with
    | some (f, ')' :: tail) => if rest.head? = some ')' then none else some (.flags f, tail)
    | some (f, _ :: tail) => some (.group f c.names, tail)
    | _ => none
  | rest => some (.group c.flags c.names, rest)

/-- A count: digits that may stand between blanks, below `2 ^ 32`. -/
def readCount (f : PatternFlags) (cs : List Char) : Option (Option Nat × List Char) :=
  let rec digits : (fuel : Nat) → List Char → List Char × List Char
    | 0, cs => ([], cs)
    | fuel + 1, cs =>
      match cs with
      | c :: rest =>
        if isDigit c then
          let (ds, rest) := digits fuel (skip f rest)
          (c :: ds, rest)
        else ([], cs)
      | [] => ([], [])
  let (ds, rest) := digits (cs.length + 1) (cs.dropWhile isBlank)
  let rest := skip f (rest.dropWhile isBlank)
  if ds.isEmpty then some (none, rest)
  else
    let n := digitsValue 0 ds
    if n < Nat.pow 2 32 then some (some n, rest) else none

/-- The counts of a repetition after its opening brace. -/
def readCounts (f : PatternFlags) (cs : List Char) :
    Option (Nat × Option Nat × List Char) := do
  let cs := skip f cs
  if cs.isEmpty then none
  let (least, rest) ← readCount f cs
  match rest with
  | ',' :: rest =>
    match skip f rest with
    | [] => none
    | '\x7d' :: rest => return (← least, none, rest)
    | rest =>
      let least ← least
      let (most, rest) ← readCount f rest
      let most ← most
      match rest with
      | '\x7d' :: rest => if most < least then none else return (least, some most, rest)
      | _ => none
  | '\x7d' :: rest =>
    let n ← least
    return (n, some n, rest)
  | _ => none

/-- Skips the question mark that makes a repetition reluctant. -/
def skipReluctant : List Char → List Char
  | '?' :: rest => rest
  | cs => cs

/-- Repeats the last part of a sequence. -/
def repeatLast (least : Nat) (most : Option Nat) : List Item → Option (List Item)
  | .part p height :: earlier => some (.part (p.repeating least most) (height + 1) :: earlier)
  | _ => none

/-- What an escape stands for as a part of a sequence. -/
def escapePart (f : PatternFlags) : Meaning → Option Item
  | .literal c => some (.part (.one (f.fold (.single c))) 0)
  | .set s => if f.allows s then some (.part (.one s) 0) else none
  | .look l => some (.part (.look l) 0)

/-- Reads alternatives up to a closing parenthesis or the end of the text.  `items` holds
the current sequence and `branches` the earlier ones, the last first. -/
def readGroup : (fuel : Nat) → Cursor → (items : List Item) → (branches : List (Pattern × Nat)) →
    Option ((Pattern × Nat) × Cursor)
  | 0, _, _, _ => none
  | fuel + 1, c, items, branches =>
    match skip c.flags c.rest with
    | [] => some (alternatives (sequence items :: branches), { c with rest := [] })
    | ')' :: rest =>
      some (alternatives (sequence items :: branches), { c with rest := ')' :: rest })
    | '|' :: rest => readGroup fuel { c with rest := rest } [] (sequence items :: branches)
    | '(' :: rest =>
      match readOpening c (skip c.flags rest) with
      | none => none
      | some (.flags f, rest) =>
        readGroup fuel { c with flags := f, rest := rest } (.flags :: items) branches
      | some (.group f names, rest) =>
        match readGroup fuel ⟨f, names, rest⟩ [] [] with
        | some ((p, height), ⟨_, names, ')' :: rest⟩) =>
          readGroup fuel { c with names := names, rest := rest }
            (.part p (height + 1) :: items) branches
        | _ => none
    | '[' :: rest =>
      match BracketSet.readSet c.flags rest with
      | none => none
      | some (s, height, rest) =>
        readGroup fuel { c with rest := rest } (.part (.one s) height :: items) branches
    | '?' :: rest =>
      match repeatLast 0 (some 1) items with
      | none => none
      | some items => readGroup fuel { c with rest := skipReluctant rest } items branches
    | '*' :: rest =>
      match repeatLast 0 none items with
      | none => none
      | some items => readGroup fuel { c with rest := skipReluctant rest } items branches
    | '+' :: rest =>
      match repeatLast 1 none items with
      | none => none
      | some items => readGroup fuel { c with rest := skipReluctant rest } items branches
    | '\x7b' :: rest =>
      match readCounts c.flags rest with
      | none => none
      | some (least, most, rest) =>
        match repeatLast least most items with
        | none => none
        | some items =>
          readGroup fuel { c with rest := skipReluctant (skip c.flags rest) } items branches
    | '\\' :: rest =>
      match read c.flags rest with
      | none => none
      | some (meaning, rest) =>
        match escapePart c.flags meaning with
        | none => none
        | some item => readGroup fuel { c with rest := rest } (item :: items) branches
    | '.' :: rest =>
      if c.flags.allows c.flags.dot then
        readGroup fuel { c with rest := rest } (.part (.one c.flags.dot) 0 :: items) branches
      else none
    | '^' :: rest =>
      readGroup fuel { c with rest := rest } (.part (.look c.flags.start) 0 :: items) branches
    | '$' :: rest =>
      readGroup fuel { c with rest := rest } (.part (.look c.flags.finish) 0 :: items) branches
    | d :: rest =>
      readGroup fuel { c with rest := rest }
        (.part (.one (c.flags.fold (.single d))) 0 :: items) branches

end PatternReading

namespace Pattern

/-- Reads a whole text as a pattern. -/
def ofText? (caseless : Bool) (cs : List Char) : Option Pattern :=
  match PatternReading.readGroup (cs.length + 1) ⟨{ caseless := caseless }, [], cs⟩ [] [] with
  | some ((p, height), ⟨_, _, []⟩) =>
    if height ≤ PatternReading.nestingLimit && p.weight ≤ PatternReading.weightLimit then some p
    else none
  | _ => none

/-- The text of a pattern that is to match a whole text: the given pattern as a group
between the start and the end of the text. -/
def wholeText (cs : List Char) : List Char :=
  ['^', '(', '?', ':'] ++ cs ++ [')', '$']

end Pattern

end ElementFinder
