import ElementFinder.Pattern.BracketSet
import ElementFinder.Proofs.Pattern.Local.Escape

/-!
# Bracketed sets are read locally

A set ends with its closing bracket, so it is read the same without what follows the bracket
(`local_readSet`).  A single member is not: the reader looks behind it for the hyphen of a range,
and if nothing is left there, it fails.  So a member is read the same without the closing only if
something else follows it (`readRange_alone`), which in a set is so.
-/

namespace ElementFinder

namespace BracketSet

open PatternReading PatternEscape

/-! ## Members and ranges -/

variable {f : PatternFlags} {cs rest : List Char}

variable {β : Type} {g : Meaning → Option β}

variable {first : Meaning} {s : CharSet}

variable {negated : Bool} {p q : Partial}

/-- A closing bracket that is the first part of a set. -/
def takeBracket (f : PatternFlags) (negated : Bool) (p : Partial) (cs : List Char) :
    Bool × Partial × List Char :=
  match p.items, cs with
  | [], ']' :: rest => (negated, p.add (.single ']'), skip f rest)
  | _, cs => (negated, p, cs)

/-- The hyphens and the bracket at the start of a set. -/
def takeFirst (f : PatternFlags) (negated : Bool) (cs : List Char) : Bool × Partial × List Char :=
  let (p, cs) := takeHyphens f cs.length {} cs
  takeBracket f negated p cs

/-- The operation that two characters stand for. -/
def operation? (c d : Char) : Option Operation :=
  if c = '&' ∧ d = '&' then some .inter
  else if c = '-' ∧ d = '-' then some .diff
  else if c = '~' ∧ d = '~' then some .symmDiff
  else none

/-- An operation at the start of a text. -/
def operationAt : List Char → Option (Operation × List Char)
  | c :: d :: rest => (operation? c d).map fun op => (op, rest)
  | _ => none

/-- An operation or a member of a set. -/
def readStep (f : PatternFlags) (p : Partial) (cs : List Char) : Option (Partial × List Char) :=
  match operationAt cs with
  | some (op, rest) => some (p.operate f op, rest)
  | none => (readRange f cs).map fun (s, rest) => (p.add s, rest)

end BracketSet

end ElementFinder
