import ElementFinder.Attributes.Value
import ElementFinder.ElementType
import ElementFinder.Rect

/-!
# Element attributes

What is recorded about one element when a tree is captured, and the value, name and label
that clients see.  The value depends on the type of the element: some types replace a
missing or empty value by something else that the element shows.
-/

namespace ElementFinder

/-- The attributes of one element.  `accessible` is the flag of this element alone, and a
missing visible frame means that the whole frame is visible. -/
structure Attributes where
  elementType : ElementType := .other
  identifier : String := ""
  label : String := ""
  value : Option AttributeValue := none
  placeholderValue : Option String := none
  enabled : Bool := true
  selected : Bool := false
  frame : Rect := .zero
  visibleFrame : Option Rect := none
  accessible : Bool := false
deriving DecidableEq, Inhabited

/-- Lifts an equality test to optional values. -/
def optionEqv {α : Type} (eqv : α → α → Bool) : Option α → Option α → Bool
  | some a, some b => eqv a b
  | none, none => true
  | _, _ => false

namespace Attributes

/-- Equality of all attributes; numbers compare as numbers. -/
def eqv (a b : Attributes) : Bool :=
  a.elementType = b.elementType && a.identifier = b.identifier && a.label = b.label &&
    optionEqv AttributeValue.eqv a.value b.value && a.placeholderValue = b.placeholderValue &&
    a.enabled = b.enabled && a.selected = b.selected && a.frame.eqv b.frame &&
    optionEqv Rect.eqv a.visibleFrame b.visibleFrame && a.accessible = b.accessible

/-- The part of the frame that is on screen. -/
def shownFrame (a : Attributes) : Rect :=
  a.visibleFrame.getD a.frame

/-- The value unless it is missing or the empty text. -/
def properValue? (a : Attributes) : Option AttributeValue :=
  a.value.filter fun v => !v.isEmptyText

/-- The value that clients see.  A static text shows its label, a button its selection, a
switch its state and a text field its placeholder. -/
def derivedValue? (a : Attributes) : Option AttributeValue :=
  if a.elementType = .staticText then
    some (a.value.getD (.text a.label))
  else if a.elementType = .button then
    some (a.properValue?.getD (.bool a.selected))
  else if a.elementType = .switch then
    some (.bool (match a.value with
      | some (.bool flag) => flag
      | some v => Binary64.lt .zero v.asNumber
      | none => false))
  else if a.elementType = .textField || a.elementType = .textView ||
      a.elementType = .secureTextField then
    match a.properValue?, a.placeholderValue with
    | some v, _ => some v
    | none, some placeholder => some (.text placeholder)
    | none, none => a.value
  else a.value

/-- The first of identifier and label that is not empty. -/
def derivedName? (a : Attributes) : Option String :=
  [a.identifier, a.label].find? fun s => !s.isEmpty

/-- The value that clients see, as text; empty when there is none. -/
def valueText (a : Attributes) : String :=
  (a.derivedValue?.map AttributeValue.display).getD ""

/-- Two elements look alike when they agree in type, name, label, value and frame as clients
see them. -/
def looksLike (a b : Attributes) : Bool :=
  a.elementType = b.elementType && a.derivedName? = b.derivedName? && a.label = b.label &&
    optionEqv AttributeValue.eqv a.derivedValue? b.derivedValue? && a.frame.eqv b.frame

end Attributes

end ElementFinder
