/-!
# XML elements

An XML element has a name, named texts in the order in which they were given, and elements
inside it.
-/

namespace ElementFinder

/-- An element with its attributes and the elements inside it. -/
inductive XmlElement where
  | mk (name : String) (attributes : List (String × String)) (children : List XmlElement)
deriving Inhabited

namespace XmlElement

/-- The name of an element. -/
def name : XmlElement → String
  | mk n _ _ => n

/-- The attributes of an element. -/
def attributes : XmlElement → List (String × String)
  | mk _ as _ => as

/-- The elements directly inside an element. -/
def children : XmlElement → List XmlElement
  | mk _ _ cs => cs

end XmlElement

end ElementFinder
