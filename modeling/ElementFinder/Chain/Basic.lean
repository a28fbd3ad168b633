import ElementFinder.Diagnostic
import ElementFinder.Predicate.Evaluation
import ElementFinder.Predicate.Printing

/-!
# Class chains

A class chain is a compact path query: steps that go down the tree, each selecting children
by type and predicate and possibly one of them by position.  The marker `**` lets the next
step look at all levels below.
-/

namespace ElementFinder

/-- A step of a chain: the marker for any number of levels, or a selection of elements by
type, predicate and position.  Positions count from one, and from the end when they are
negative. -/
inductive ChainStep where
  | anyDepth
  | select (elementType : ElementType) (predicate : Option Predicate) (position : Option Int)

/-- The steps of a chain. -/
abbrev Chain := List ChainStep

namespace ChainStep

/-- Equality of steps; numbers in predicates compare as numbers. -/
def eqv : ChainStep → ChainStep → Bool
  | anyDepth, anyDepth => true
  | select t p i, select u q j => t = u && optionEqv Predicate.eqv p q && i = j
  | _, _ => false

/-- The type that a step accepts. -/
def elementType : ChainStep → ElementType
  | anyDepth => .any
  | select t _ _ => t

/-- The predicate of a step. -/
def predicate? : ChainStep → Option Predicate
  | anyDepth => none
  | select _ p _ => p

/-- The position of a step. -/
def position? : ChainStep → Option Int
  | anyDepth => none
  | select _ _ i => i

/-- The text of an optional predicate, between grave accents and brackets. -/
def predicateChars : Option Predicate → List Char
  | none => []
  | some p => ['[', '\x60'] ++ p.chars ++ ['\x60', ']']

/-- The text of an optional position, between brackets. -/
def positionChars : Option Int → List Char
  | none => []
  | some i => '[' :: (toString i).toList ++ [']']

/-- The text of a step. -/
def chars : ChainStep → List Char
  | anyDepth => ['*', '*']
  | select t p i =>
    (if t.isAny then ['*'] else t.name.toList) ++ predicateChars p ++ positionChars i

/-- The text of a step. -/
def display (s : ChainStep) : String :=
  String.ofList s.chars

end ChainStep

namespace Chain

/-- Equality step by step. -/
def eqv : Chain → Chain → Bool
  | [], [] => true
  | s :: c, t :: d => s.eqv t && eqv c d
  | _, _ => false

/-- The text of a chain: its steps with slashes between them. -/
def chars : Chain → List Char
  | [] => []
  | [s] => s.chars
  | s :: rest => s.chars ++ '/' :: chars rest

/-- The text of a chain. -/
def display (c : Chain) : String :=
  String.ofList (chars c)

end Chain

end ElementFinder
