import ElementFinder.Predicate.Basic

/-!
# Writing predicates

The text of a predicate.  Keys, operators and constants are written in one spelling, and
conjunctions and disjunctions inside others stand between parentheses.
-/

namespace ElementFinder

namespace Literal

/-- A character inside quotation marks. -/
def escape (c : Char) : List Char :=
  if c = '\\' || c = '"' then ['\\', c] else [c]

/-- A text between quotation marks. -/
def quoted (cs : List Char) : List Char :=
  '"' :: cs.flatMap escape ++ ['"']

mutual

/-- The text of a literal. -/
def chars : Literal → List Char
  | text content => quoted content.toList
  | number value => value.scalarText.toList
  | bool flag => (if flag then "TRUE" else "FALSE").toList
  | null => "NIL".toList
  | list items => '\x7b' :: charsOfAll items ++ ['\x7d']

/-- The texts of the items, separated by commas. -/
def charsOfAll : List Literal → List Char
  | [] => []
  | [item] => chars item
  | item :: rest => chars item ++ [',', ' '] ++ charsOfAll rest

end

end Literal

/-- The modifiers between brackets, or nothing. -/
def CompareOptions.chars (o : CompareOptions) : List Char :=
  if o.caseless || o.markless then
    '[' :: (if o.caseless then ['c'] else []) ++ (if o.markless then ['d'] else []) ++ [']']
  else []

/-- The text of a comparison. -/
def Comparison.chars (c : Comparison) : List Char :=
  c.subject.key.toList ++ ' ' :: c.operator.symbol.toList ++ c.options.chars ++
    ' ' :: c.literal.chars

namespace Formula

variable {α : Type}

/-- The text of a term, between parentheses if the term joins others. -/
def enclosed (p : Formula α) (text : List Char) : List Char :=
  match p with
  | and _ => '(' :: text ++ [')']
  | or _ => '(' :: text ++ [')']
  | _ => text

mutual

/-- The text of a formula over atoms with a text. -/
def chars (atomChars : α → List Char) : Formula α → List Char
  | constant value => (if value then "TRUEPREDICATE" else "FALSEPREDICATE").toList
  | atom a => atomChars a
  | not p => "NOT (".toList ++ chars atomChars p ++ [')']
  | and terms => charsOfAll atomChars " AND ".toList terms
  | or terms => charsOfAll atomChars " OR ".toList terms

/-- The texts of the terms with a separator between them. -/
def charsOfAll (atomChars : α → List Char) (separator : List Char) :
    List (Formula α) → List Char
  | [] => []
  | [p] => enclosed p (chars atomChars p)
  | p :: rest =>
    enclosed p (chars atomChars p) ++ separator ++ charsOfAll atomChars separator rest

end

end Formula

namespace Predicate

/-- The text of a predicate. -/
def chars (p : Predicate) : List Char :=
  Formula.chars Comparison.chars p

/-- The text of a predicate. -/
def display (p : Predicate) : String :=
  String.ofList p.chars

end Predicate

end ElementFinder
