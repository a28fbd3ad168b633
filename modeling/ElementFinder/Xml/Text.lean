import ElementFinder.Xml.Element

/-!
# Writing XML

A document is written on one line after its declaration.  Attribute texts stand between
apostrophes, with the five characters that have a meaning in XML written by name.
-/

namespace ElementFinder

namespace XmlText

/-- The written form of one character of an attribute text. -/
def escape (c : Char) : List Char :=
  match c with
  | '<' => "&lt;".toList
  | '>' => "&gt;".toList
  | '&' => "&amp;".toList
  | '\x27' => "&apos;".toList
  | '"' => "&quot;".toList
  | c => [c]

/-- An attribute with the blank before it. -/
def pair (name text : String) : List Char :=
  ' ' :: name.toList ++ ['=', '\x27'] ++ text.toList.flatMap escape ++ ['\x27']

/-- The inside of a start tag. -/
def head (name : String) (attributes : List (String × String)) : List Char :=
  name.toList ++ attributes.flatMap fun (key, text) => pair key text

mutual

/-- An element; one without content is a single tag. -/
def element : XmlElement → List Char
  | .mk name attributes [] => '<' :: head name attributes ++ ['/', '>']
  | .mk name attributes (child :: rest) =>
    '<' :: head name attributes ++ '>' :: elements (child :: rest) ++
      ['<', '/'] ++ name.toList ++ ['>']

/-- Elements one after the other. -/
def elements : List XmlElement → List Char
  | [] => []
  | e :: rest => element e ++ elements rest

end

/-- The declaration at the start of a document. -/
def declaration : List Char :=
  "<?xml version='1.0'?>".toList

end XmlText

/-- The text of a document with an element at its top. -/
def XmlElement.document (e : XmlElement) : String :=
  String.ofList (XmlText.declaration ++ XmlText.element e)

end ElementFinder
