import ElementFinder.Attributes.Basic
import ElementFinder.Data.Reading

/-!
# Attributes as data

Attributes are written as records with a key for each attribute, and read from records or
lists in which every attribute may be missing.  A type is written by its canonical name
and read from a name or a code.
-/

namespace ElementFinder

namespace ElementType

/-- Reads a registered code or a name. -/
def ofData : Data → Reader ElementType
  | .int (.ofNat code) =>
    if code < shortTypeNames.length then .ok ⟨UInt16.ofNat code⟩
    else if code < 65536 then .error (.rule (InvalidTypeName.message ⟨toString code⟩))
    else .error .shape
  | .text name => (lookup name).mapError fun e => .rule e.message
  | _ => .error .shape

/-- A type is written by its canonical name. -/
def toData (t : ElementType) : Data :=
  .text t.name

end ElementType

namespace Rect

/-- The keys of a rectangle. -/
def keys : List String := ["x", "y", "width", "height"]

/-- Reads one number of a rectangle. -/
def readField (r : Rect) (key : String) (d : Data) : Reader Rect := do
  let value ← d.readNumber
  match key with
  | "x" => return { r with x := value }
  | "y" => return { r with y := value }
  | "width" => return { r with width := value }
  | _ => return { r with height := value }

/-- Reads a rectangle; missing numbers are zero. -/
def ofData (d : Data) : Reader Rect :=
  d.readFields keys readField zero

/-- A rectangle is written as a record of its four numbers. -/
def toData (r : Rect) : Data :=
  .object [("x", .float r.x), ("y", .float r.y), ("width", .float r.width),
    ("height", .float r.height)]

end Rect

namespace AttributeValue

/-- Reads a truth value, a number or a text. -/
def ofData : Data → Reader AttributeValue
  | .bool flag => .ok (.bool flag)
  | .int i => .ok (.number (.ofInt i))
  | .float x => .ok (.number x)
  | .text s => .ok (.text s)
  | _ => .error .shape

/-- A value is written as it is. -/
def toData : AttributeValue → Data
  | bool flag => .bool flag
  | number x => .float x
  | text s => .text s

end AttributeValue

namespace Attributes

/-- The keys of the attributes. -/
def keys : List String :=
  ["type", "identifier", "label", "value", "placeholderValue", "enabled", "selected", "frame",
   "visibleFrame", "accessible"]

/-- Reads one attribute. -/
def readField (a : Attributes) (key : String) (d : Data) : Reader Attributes :=
  match key with
  | "type" => return { a with elementType := ← ElementType.ofData d }
  | "identifier" => return { a with identifier := ← d.readText }
  | "label" => return { a with label := ← d.readText }
  | "value" => return { a with value := ← d.readOption AttributeValue.ofData }
  | "placeholderValue" => return { a with placeholderValue := ← d.readOption Data.readText }
  | "enabled" => return { a with enabled := ← d.readBool }
  | "selected" => return { a with selected := ← d.readBool }
  | "frame" => return { a with frame := ← Rect.ofData d }
  | "visibleFrame" => return { a with visibleFrame := ← d.readOption Rect.ofData }
  | _ => return { a with accessible := ← d.readBool }

/-- Reads attributes; missing ones take their defaults. -/
def ofData (d : Data) : Reader Attributes :=
  d.readFields keys readField {}

/-- Attributes are written with every key, missing values as null. -/
def toEntries (a : Attributes) : List (String × Data) :=
  [("type", a.elementType.toData),
   ("identifier", .text a.identifier),
   ("label", .text a.label),
   ("value", (a.value.map AttributeValue.toData).getD .null),
   ("placeholderValue", (a.placeholderValue.map Data.text).getD .null),
   ("enabled", .bool a.enabled),
   ("selected", .bool a.selected),
   ("frame", a.frame.toData),
   ("visibleFrame", (a.visibleFrame.map Rect.toData).getD .null),
   ("accessible", .bool a.accessible)]

/-- Attributes as a record. -/
def toData (a : Attributes) : Data :=
  .object a.toEntries

end Attributes

end ElementFinder
