import ElementFinder.Attributes.Basic
import ElementFinder.Pattern.Reading
import ElementFinder.Pattern.Wildcard
import ElementFinder.Predicate.Formula

/-!
# Predicates

A predicate is a formula whose atoms compare an attribute of an element with a literal.
`Comparison.make` admits only comparisons that can be evaluated: patterns have to be
readable texts, and nothing is a member of null.
-/

namespace ElementFinder

/-- The attributes that a comparison can read. -/
inductive Attribute where
  | identifier
  | name
  | label
  | value
  | placeholderValue
  | elementType
  | enabled
  | selected
  | visible
  | accessible
  | x
  | y
  | width
  | height
deriving DecidableEq, Repr

namespace Attribute

/-- All attributes. -/
def all : List Attribute :=
  [identifier, name, label, value, placeholderValue, elementType, enabled, selected, visible,
   accessible, x, y, width, height]

/-- The key that an attribute is written with. -/
def key : Attribute → String
  | identifier => "identifier"
  | name => "name"
  | label => "label"
  | value => "value"
  | placeholderValue => "placeholderValue"
  | elementType => "elementType"
  | enabled => "enabled"
  | selected => "selected"
  | visible => "visible"
  | accessible => "accessible"
  | x => "rect.x"
  | y => "rect.y"
  | width => "rect.width"
  | height => "rect.height"

/-- The other keys of an attribute. -/
def aliases : Attribute → List String
  | identifier => []
  | name => ["wdName"]
  | label => ["wdLabel"]
  | value => ["wdValue"]
  | placeholderValue => []
  | elementType => ["type", "wdType"]
  | enabled => ["isEnabled"]
  | selected => ["isSelected"]
  | visible => ["isVisible"]
  | accessible => ["isAccessible"]
  | x => ["x"]
  | y => ["y"]
  | width => ["width"]
  | height => ["height"]

/-- The attribute with a key. -/
def ofKey? (key : String) : Option Attribute :=
  all.find? fun a => a.key = key || a.aliases.contains key

end Attribute

/-- A literal of a comparison, and the value that an attribute reads as. -/
inductive Literal where
  | text (content : String)
  | number (value : Binary64)
  | bool (flag : Bool)
  | null
  | list (items : List Literal)
deriving Inhabited

namespace Literal

mutual

/-- Equality of literals; numbers compare as numbers. -/
def eqv : Literal → Literal → Bool
  | text a, text b => a = b
  | number a, number b => a.eqv b
  | bool a, bool b => a = b
  | null, null => true
  | list a, list b => eqvAll a b
  | _, _ => false

/-- Equality item by item. -/
def eqvAll : List Literal → List Literal → Bool
  | [], [] => true
  | a :: as, b :: bs => eqv a b && eqvAll as bs
  | _, _ => false

end

end Literal

/-- The operators of comparisons. -/
inductive CompareOperator where
  | equal
  | notEqual
  | less
  | lessOrEqual
  | greater
  | greaterOrEqual
  | beginsWith
  | contains
  | endsWith
  | like
  | matching
  | within
deriving DecidableEq, Repr

/-- The symbol that an operator is written with. -/
def CompareOperator.symbol : CompareOperator → String
  | equal => "=="
  | notEqual => "!="
  | less => "<"
  | lessOrEqual => "<="
  | greater => ">"
  | greaterOrEqual => ">="
  | beginsWith => "BEGINSWITH"
  | contains => "CONTAINS"
  | endsWith => "ENDSWITH"
  | like => "LIKE"
  | matching => "MATCHES"
  | within => "IN"

/-- The modifiers of a comparison: without regard to case, and without regard to diacritic
marks.  The second is accepted but changes nothing. -/
structure CompareOptions where
  caseless : Bool := false
  markless : Bool := false
deriving DecidableEq, Repr, Inhabited

/-- A comparison as it is written; the key may name no attribute. -/
structure ComparisonDraft where
  key : String
  operator : CompareOperator
  options : CompareOptions
  literal : Literal

/-- A comparison of an attribute with a literal. -/
structure Comparison where
  subject : Attribute
  operator : CompareOperator
  options : CompareOptions
  literal : Literal

/-- A predicate on elements. -/
abbrev Predicate := Formula Comparison

/-- Why a text is not a predicate, or a comparison not possible. -/
inductive PredicateError where
  | unreadable (expression : String)
  | unknownAttribute (key : String)
  | invalidPattern (pattern : String)
  | invalidOperand (operator : CompareOperator) (expected : String)
deriving DecidableEq, Repr

/-- The sentence that reports an error.  What the readers of predicates and of patterns report
themselves, which would follow after a colon, is left out. -/
def PredicateError.message : PredicateError → String
  | unreadable expression => "invalid predicate '" ++ expression ++ "'"
  | unknownAttribute key => "unknown attribute '" ++ key ++ "'"
  | invalidPattern pattern => "invalid pattern '" ++ pattern ++ "'"
  | invalidOperand operator expected => "operator " ++ operator.symbol ++ " expects " ++ expected

namespace Comparison

/-- Equality of all parts; numbers compare as numbers. -/
def eqv (a b : Comparison) : Bool :=
  a.subject = b.subject && a.operator = b.operator && a.options = b.options &&
    a.literal.eqv b.literal

/-- The pattern that a text stands for under an operator, a wildcard pattern or a pattern for
the whole text, if it is readable and not too large. -/
def patternOf? (operator : CompareOperator) (options : CompareOptions) (source : String) :
    Option Pattern :=
  match operator with
  | .like => Pattern.ofText? options.caseless (Pattern.wildcardText source.toList)
  | _ => Pattern.ofText? options.caseless (Pattern.wholeText source.toList)

/-- The pattern of a comparison by pattern. -/
def pattern? (c : Comparison) : Option Pattern :=
  match c.operator, c.literal with
  | .like, .text source => patternOf? .like c.options source
  | .matching, .text source => patternOf? .matching c.options source
  | _, _ => none

/-- A comparison that can be evaluated. -/
def make (subject : Attribute) (operator : CompareOperator) (options : CompareOptions)
    (literal : Literal) : Except PredicateError Comparison :=
  let comparison : Comparison := ⟨subject, operator, options, literal⟩
  match operator, literal with
  | .like, .text source | .matching, .text source =>
    if (patternOf? operator options source).isSome then .ok comparison
    else .error (.invalidPattern source)
  | .like, _ | .matching, _ => .error (.invalidOperand operator "a string pattern")
  | .within, .null => .error (.invalidOperand operator "a list or string")
  | _, _ => .ok comparison

/-- The comparison that a draft describes. -/
def ofDraft (d : ComparisonDraft) : Except PredicateError Comparison :=
  match Attribute.ofKey? d.key with
  | none => .error (.unknownAttribute d.key)
  | some subject => make subject d.operator d.options d.literal

end Comparison

/-- The comparisons offered for the text of an attribute. -/
inductive TextComparison where
  | equals
  | notEquals
  | beginsWith
  | contains
  | endsWith
  | like
  | matching
deriving DecidableEq, Repr

/-- The operator of a text comparison. -/
def TextComparison.operator : TextComparison → CompareOperator
  | equals => .equal
  | notEquals => .notEqual
  | beginsWith => .beginsWith
  | contains => .contains
  | endsWith => .endsWith
  | like => .like
  | matching => .matching

namespace Predicate

/-- The predicate that always holds. -/
def always : Predicate := .constant true

/-- Equality of predicates; numbers compare as numbers. -/
def eqv (p q : Predicate) : Bool :=
  Formula.eqv Comparison.eqv p q

/-- A single comparison of an attribute with a text. -/
def attributeMatching (key : String) (comparison : TextComparison) (content : String) :
    Except PredicateError Predicate :=
  (Comparison.ofDraft ⟨key, comparison.operator, {}, .text content⟩).map .atom

/-- The predicate that an attribute equals a text. -/
def equals (key content : String) : Except PredicateError Predicate :=
  attributeMatching key .equals content

end Predicate

end ElementFinder
