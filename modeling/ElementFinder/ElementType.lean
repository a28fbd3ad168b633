import ElementFinder.Text.Blank

/-!
# Element types

The accessibility layer reports the type of an element as a small code.  Registered codes
have a canonical name, which is a common stem followed by a short name, and both names
look up the same code.  Other codes are allowed but have no name.
-/

namespace ElementFinder

/-- The stem that all canonical names share. -/
def typeNameStem : String := "XCUIElementType"

/-- The short names of the registered types; the place in the list is the code. -/
def shortTypeNames : List String :=
  ["Any", "Other", "Application", "Group", "Window", "Sheet", "Drawer", "Alert",
   "Dialog", "Button", "RadioButton", "RadioGroup", "CheckBox", "DisclosureTriangle",
   "PopUpButton", "ComboBox", "MenuButton", "ToolbarButton", "Popover", "Keyboard",
   "Key", "NavigationBar", "TabBar", "TabGroup", "Toolbar", "StatusBar", "Table",
   "TableRow", "TableColumn", "Outline", "OutlineRow", "Browser", "CollectionView",
   "Slider", "PageIndicator", "ProgressIndicator", "ActivityIndicator",
   "SegmentedControl", "Picker", "PickerWheel", "Switch", "Toggle", "Link", "Image",
   "Icon", "SearchField", "ScrollView", "ScrollBar", "StaticText", "TextField",
   "SecureTextField", "DatePicker", "TextView", "Menu", "MenuItem", "MenuBar",
   "MenuBarItem", "Map", "WebView", "IncrementArrow", "DecrementArrow", "Timeline",
   "RatingIndicator", "ValueIndicator", "SplitGroup", "Splitter", "RelevanceIndicator",
   "ColorWell", "HelpTag", "Matte", "DockItem", "Ruler", "RulerMarker", "Grid",
   "LevelIndicator", "Cell", "LayoutArea", "LayoutItem", "Handle", "Stepper", "Tab"]

/-- The type of an element, known by its code. -/
structure ElementType where
  code : UInt16
deriving DecidableEq, Repr, Inhabited

/-- A name that no registered type has. -/
structure InvalidTypeName where
  name : String
deriving DecidableEq, Repr

/-- The sentence that reports an invalid type name. -/
def InvalidTypeName.message (e : InvalidTypeName) : String :=
  "'" ++ e.name ++ "' is not a valid element type name"

namespace ElementType

/-- The wildcard type. -/
def any : ElementType := ⟨0⟩

/-- The type of elements of no particular kind. -/
def other : ElementType := ⟨1⟩

/-- A push button. -/
def button : ElementType := ⟨9⟩

/-- A table. -/
def table : ElementType := ⟨26⟩

/-- A two-state switch. -/
def switch : ElementType := ⟨40⟩

/-- A text that cannot be edited. -/
def staticText : ElementType := ⟨48⟩

/-- A one-line text field. -/
def textField : ElementType := ⟨49⟩

/-- A text field that hides its text. -/
def secureTextField : ElementType := ⟨50⟩

/-- A text area. -/
def textView : ElementType := ⟨52⟩

/-- A cell of a table. -/
def cell : ElementType := ⟨75⟩

/-- The short name, empty for an unregistered code. -/
def shortName (t : ElementType) : String :=
  (shortTypeNames[t.code.toNat]?).getD ""

/-- A type is registered when its code has a name. -/
def isRegistered (t : ElementType) : Bool :=
  t.code.toNat < shortTypeNames.length

/-- The canonical name, empty for an unregistered code. -/
def name (t : ElementType) : String :=
  if t.isRegistered then typeNameStem ++ t.shortName else ""

/-- Only the wildcard is the wildcard. -/
def isAny (t : ElementType) : Bool :=
  t = any

/-- A type accepts itself, and the wildcard accepts every type. -/
def accepts (t u : ElementType) : Bool :=
  t.isAny || t = u

/-- All registered types in code order. -/
def all : List ElementType :=
  (List.range shortTypeNames.length).map fun code => ⟨UInt16.ofNat code⟩

/-- Canonical and short names stand for the same code; the stem is taken off at most once. -/
def withoutStem (cs : List Char) : List Char :=
  if typeNameStem.toList.isPrefixOf cs then cs.drop typeNameStem.length else cs

/-- The registered type with a canonical or short name, which may stand between blanks. -/
def ofName? (name : String) : Option ElementType :=
  let short := String.ofList (withoutStem (trimBlank name.toList))
  (shortTypeNames.findIdx? (· = short)).map fun code => ⟨UInt16.ofNat code⟩

/-- Looks up a name, keeping the name in the error. -/
def lookup (name : String) : Except InvalidTypeName ElementType :=
  match ofName? name with
  | some t => .ok t
  | none => .error ⟨name⟩

/-- Looks up a name; an unknown name stands for the wildcard. -/
def fromName (name : String) : ElementType :=
  (ofName? name).getD any

instance : ToString ElementType :=
  ⟨fun t => if t.isRegistered then t.name else "ElementType(" ++ toString t.code ++ ")"⟩

end ElementType

end ElementFinder
