/-!
# Locators

A locator says which elements are wanted: a strategy and a value.  It is written as the
key of the strategy, an equals sign and the value.  A text without a known key is an
identifier as a whole, so every text is a locator.
-/

namespace ElementFinder

/-- The ways in which a locator describes elements. -/
inductive Strategy where
  | id
  | name
  | accessibilityId
  | className
  | predicate
  | classChain
  | xpath
  | identifier
deriving DecidableEq, Repr

namespace Strategy

/-- All strategies. -/
def all : List Strategy :=
  [id, name, accessibilityId, className, predicate, classChain, xpath, identifier]

/-- The name that a strategy is written with in locators. -/
def title : Strategy → String
  | id => "id"
  | name => "name"
  | accessibilityId => "accessibility id"
  | className => "class-name"
  | predicate => "predicate"
  | classChain => "class-chain"
  | xpath => "xpath"
  | identifier => "identifier"

/-- The name of a strategy in data files, which has no blanks. -/
def dataName : Strategy → String
  | accessibilityId => "accessibility-id"
  | s => s.title

/-- The keys of locators, in the order in which they are tried. -/
def keys : List (String × Strategy) :=
  [("id", id), ("name", name), ("accessibility id", accessibilityId),
   ("accessibility-id", accessibilityId), ("class-name", className), ("predicate", predicate),
   ("class-chain", classChain), ("xpath", xpath)]

/-- The strategies that can describe the one element from which relatives are sought. -/
def describesSingle : Strategy → Bool
  | id | name | accessibilityId | predicate | identifier => true
  | className | classChain | xpath => false

end Strategy

/-- A strategy with its value. -/
structure Locator where
  strategy : Strategy
  value : String
deriving DecidableEq, Repr

namespace Locator

/-- Takes a key and the equals sign after it off the front of a text. -/
def afterKey? (key cs : List Char) : Option (List Char) :=
  if (key ++ ['=']).isPrefixOf cs then some (cs.drop (key.length + 1)) else none

/-- Reads a text as a locator, over characters. -/
def ofChars (cs : List Char) : Locator :=
  match Strategy.keys.findSome? fun (key, strategy) =>
      (afterKey? key.toList cs).map (strategy, ·) with
  | some (strategy, value) => ⟨strategy, String.ofList value⟩
  | none => ⟨.identifier, String.ofList cs⟩

/-- Reads a text as a locator. -/
def parse (raw : String) : Locator :=
  ofChars raw.toList

/-- The written form of a locator, over characters. -/
def chars (l : Locator) : List Char :=
  if l.strategy = .identifier then l.value.toList
  else l.strategy.title.toList ++ '=' :: l.value.toList

/-- The written form of a locator. -/
def display (l : Locator) : String :=
  String.ofList l.chars

/-- Puts arguments in the places marked `%@` or `%d`, in order.  A place without an
argument stays as it is, and inserted text is not looked at again. -/
def substitute : (template : List Char) → (arguments : List (List Char)) → List Char
  | '%' :: '@' :: rest, argument :: arguments => argument ++ substitute rest arguments
  | '%' :: '@' :: rest, [] => '%' :: '@' :: substitute rest []
  | '%' :: 'd' :: rest, argument :: arguments => argument ++ substitute rest arguments
  | '%' :: 'd' :: rest, [] => '%' :: 'd' :: substitute rest []
  | c :: rest, arguments => c :: substitute rest arguments
  | [], _ => []

/-- Reads a template with its places filled in as a locator. -/
def format (template : String) (arguments : List String) : Locator :=
  ofChars (substitute template.toList (arguments.map String.toList))

end Locator

/-- How many of the matching elements are wanted. -/
inductive MatchMode where
  | first
  | all
deriving DecidableEq, Repr

namespace MatchMode

/-- The mode that a wish for the first match only asks for. -/
def ofFirst (first : Bool) : MatchMode :=
  if first then .first else .all

/-- The name of a mode. -/
def title : MatchMode → String
  | first => "first"
  | all => "all"

/-- The wanted part of a list of matches. -/
def apply {α : Type} : MatchMode → List α → List α
  | first, items => items.take 1
  | all, items => items

end MatchMode

end ElementFinder
