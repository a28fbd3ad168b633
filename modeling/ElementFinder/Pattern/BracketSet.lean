import ElementFinder.Pattern.Escape

/-!
# Bracketed sets in patterns

A set between brackets lists characters, ranges, classes and further sets.  `&&`, `--` and
`~~` combine what stands on their two sides, from left to right, and a circumflex at the
start takes the complement.
-/

namespace ElementFinder.BracketSet

open PatternEscape

/-- The operations between parts of a set. -/
inductive Operation where
  | inter
  | diff
  | symmDiff

/-- Combines two sets by an operation. -/
def Operation.combine (op : Operation) (s t : CharSet) : CharSet :=
  match op with
  | inter => .inter s t
  | diff => .diff s t
  | symmDiff => .symmDiff s t

/-- A set that is being read: the parts so far, the part before the last operation, and how
deep the parts are nested. -/
structure Partial where
  left : Option (Operation × CharSet) := none
  items : List CharSet := []
  height : Nat := 0

namespace Partial

/-- Adds a part. -/
def add (p : Partial) (s : CharSet) : Partial :=
  { p with items := s :: p.items }

/-- The union of the parts since the last operation. -/
def union (p : Partial) : CharSet :=
  match p.items with
  | [] => .empty
  | item :: items => items.foldl .union item

/-- All that has been read, as one set. -/
def total (f : PatternFlags) (p : Partial) : CharSet :=
  match p.left with
  | none => p.union
  | some (op, s) => op.combine (f.fold s) (f.fold p.union)

/-- Closes what has been read as the left side of an operation. -/
def operate (f : PatternFlags) (op : Operation) (p : Partial) : Partial :=
  { left := some (op, p.total f), items := [], height := p.height + 1 }

/-- The finished set and its height. -/
def finish (f : PatternFlags) (negated : Bool) (p : Partial) : CharSet × Nat :=
  let s := f.fold (p.total f)
  (if negated then .complement s else s, p.height + (if p.items.length ≤ 1 then 1 else 2))

end Partial

/-- One member: a character or a class. -/
def readMember (f : PatternFlags) : List Char → Option (Meaning × List Char)
  | [] => none
  | '\\' :: rest => read f rest
  | c :: rest => some (.literal c, rest)

/-- The code of a character that may be a member. -/
def memberCode (f : PatternFlags) : Meaning → Option Nat
  | .literal c => if f.wide || c.toNat < 128 then some c.toNat else none
  | _ => none

/-- A member as a set; conditions are no members. -/
def memberSet (f : PatternFlags) : Meaning → Option CharSet
  | .set s => some s
  | m => (memberCode f m).map fun code => .ranges [(code, code)]

/-- A member or a range of members.  A hyphen before the closing bracket or before another
hyphen makes no range. -/
def readRange (f : PatternFlags) (cs : List Char) : Option (CharSet × List Char) := do
  let (first, rest) ← readMember f cs
  match skip f rest with
  | [] => none
  | '-' :: tail =>
    match skip f tail with
    | ']' :: _ => return (← memberSet f first, '-' :: tail)
    | '-' :: _ => return (← memberSet f first, '-' :: tail)
    | [] => none
    | tail =>
      let (last, rest) ← readMember f tail
      let low ← memberCode f first
      let high ← memberCode f last
      if high < low then none
      return (.ranges [(low, high)], rest)
  | rest => return (← memberSet f first, rest)

/-- A named class such as `[:alpha:]`, without its opening bracket. -/
def readNamed (f : PatternFlags) (cs : List Char) : Option (CharSet × List Char) := do
  match cs with
  | ':' :: rest =>
    let (negated, rest) := match rest with
      | '^' :: rest => (true, rest)
      | rest => (false, rest)
    let name := rest.takeWhile (· != ':')
    match rest.dropWhile (· != ':') with
    | ':' :: ']' :: rest =>
      let s := f.fold (← CharSet.named? (String.ofList name))
      return (if negated then .complement s else s, rest)
    | _ => none
  | _ => none

/-- The hyphens at the start of a set, which stand for themselves. -/
def takeHyphens (f : PatternFlags) : (fuel : Nat) → Partial → List Char → Partial × List Char
  | 0, p, cs => (p, cs)
  | fuel + 1, p, cs =>
    match cs with
    | '-' :: rest => takeHyphens f fuel (p.add (.single '-')) (skip f rest)
    | cs => (p, cs)

/-- The start of a set after its opening bracket: a circumflex, hyphens, and a closing
bracket that stands for itself. -/
def readOpening (f : PatternFlags) (cs : List Char) : Bool × Partial × List Char :=
  let cs := skip f cs
  let (negated, cs) := match cs with
    | '^' :: rest => (true, skip f rest)
    | cs => (false, cs)
  let (p, cs) := takeHyphens f cs.length {} cs
  match p.items, cs with
  | [], ']' :: rest => (negated, p.add (.single ']'), skip f rest)
  | _, cs => (negated, p, cs)

/-- Reads the parts of a set up to its closing bracket. -/
def readParts (f : PatternFlags) : (fuel : Nat) → (negated : Bool) → Partial → List Char →
    Option (CharSet × Nat × List Char)
  | 0, _, _, _ => none
  | fuel + 1, negated, p, cs =>
    match skip f cs with
    | [] => none
    | ']' :: rest =>
      let (s, height) := p.finish f negated
      some (s, height, rest)
    | '[' :: rest =>
      match readNamed f rest with
      | some (s, rest) => readParts f fuel negated (p.add s) rest
      | none =>
        let (innerNegated, inner, rest) := readOpening f rest
        match readParts f fuel innerNegated inner rest with
        | none => none
        | some (s, height, rest) =>
          readParts f fuel negated { p.add s with height := max p.height height } rest
    | '&' :: '&' :: rest => readParts f fuel negated (p.operate f .inter) rest
    | '-' :: '-' :: rest => readParts f fuel negated (p.operate f .diff) rest
    | '~' :: '~' :: rest => readParts f fuel negated (p.operate f .symmDiff) rest
    | cs =>
      match readRange f cs with
      | none => none
      | some (s, rest) => readParts f fuel negated (p.add s) rest

/-- Reads a set after its opening bracket: the set, its height and what follows. -/
def readSet (f : PatternFlags) (cs : List Char) : Option (CharSet × Nat × List Char) := do
  let (negated, p, rest) := readOpening f cs
  let (s, height, rest) ← readParts f (cs.length + 1) negated p rest
  if f.allows s then return (s, height, rest) else none

end ElementFinder.BracketSet
