import ElementFinder.Xml.Element

/-!
# Documents that paths are evaluated on

The elements of an XML document are numbered in document order.  An element knows how many
elements its subtree has, so that its descendants are the numbers right after its own, what
follows it are the numbers after those, and what precedes it are the smaller numbers whose
subtree ends before it.

Besides elements a document has a root above the top element, attributes, and one namespace
binding for each element.  In document order the attributes of an element stand after it in
reverse order of creation.
-/

namespace ElementFinder.XPath

/-- A numbered element. -/
structure Entry where
  name : String
  attributes : List (String × String)
  parent : Option Nat
  size : Nat
deriving Inhabited

/-- The elements of a document in document order. -/
structure Document where
  entries : Array Entry

/-- A place in a document: its root, an element, an attribute of an element by its place
among them, or the namespace binding of an element. -/
inductive Node where
  | root
  | element (id : Nat)
  | attribute (owner place : Nat)
  | binding (owner : Nat)
deriving DecidableEq, Repr

mutual

/-- The entries of an element and of all below it, when the element gets a number. -/
def entriesOf (parent : Option Nat) (id : Nat) : XmlElement → List Entry
  | .mk name attributes children =>
    let below := entriesOfAll id (id + 1) children
    ⟨name, attributes, parent, below.length + 1⟩ :: below

/-- The entries of elements with one parent, numbered one after the other. -/
def entriesOfAll (parent : Nat) (id : Nat) : List XmlElement → List Entry
  | [] => []
  | e :: rest =>
    let here := entriesOf (some parent) id e
    here ++ entriesOfAll parent (id + here.length) rest

end

namespace Document

/-- The document with an element at its top. -/
def ofElement (e : XmlElement) : Document :=
  ⟨(entriesOf none 0 e).toArray⟩

/-- The number of elements. -/
def size (d : Document) : Nat :=
  d.entries.size

/-- The entry of an element. -/
def entry (d : Document) (id : Nat) : Entry :=
  d.entries[id]?.getD default

/-- The numbers from one number up to another, the latter excluded. -/
def numbers (start stop : Nat) : List Nat :=
  (List.range (stop - start)).map (start + ·)

/-- The first number after the subtree of an element. -/
def subtreeEnd (d : Document) (id : Nat) : Nat :=
  id + (d.entry id).size

/-- The proper descendants of an element in document order. -/
def descendants (d : Document) (id : Nat) : List Nat :=
  numbers (id + 1) (d.subtreeEnd id)

/-- The children of an element in document order. -/
def children (d : Document) (id : Nat) : List Nat :=
  (d.descendants id).filter fun i => (d.entry i).parent = some id

/-- The elements after the subtree of an element, in document order. -/
def following (d : Document) (id : Nat) : List Nat :=
  numbers (d.subtreeEnd id) d.size

/-- The elements whose subtree ends before an element, in document order. -/
def preceding (d : Document) (id : Nat) : List Nat :=
  (List.range id).filter fun i => d.subtreeEnd i ≤ id

/-- The elements with the same parent. -/
def siblings (d : Document) (id : Nat) (among : List Nat) : List Nat :=
  among.filter fun i => (d.entry i).parent = (d.entry id).parent

/-- The elements whose subtree holds an element, the nearest first. -/
def ancestors (d : Document) (id : Nat) : List Nat :=
  ((List.range id).filter fun i => id < d.subtreeEnd i).reverse

/-- The attributes of an element in order of creation. -/
def attributeNodes (d : Document) (id : Nat) : List Node :=
  (List.range (d.entry id).attributes.length).map (.attribute id)

/-- The node above a node. -/
def parent? (d : Document) : Node → Option Node
  | .root => none
  | .element id => some (((d.entry id).parent.map .element).getD .root)
  | .attribute owner _ => some (.element owner)
  | .binding owner => some (.element owner)

/-- The name of an attribute and its text. -/
def attribute? (d : Document) (owner place : Nat) : Option (String × String) :=
  (d.entry owner).attributes[place]?

/-- The name of a node; the root has none. -/
def nameOf (d : Document) : Node → String
  | .root => ""
  | .element id => (d.entry id).name
  | .attribute owner place => ((d.attribute? owner place).map Prod.fst).getD ""
  | .binding _ => "xml"

/-- The name of the namespace that is bound in every element. -/
def namespaceName : String :=
  "/".intercalate ["http:", "", "www.w3.org", "XML", "1998", "namespace"]

/-- The text of a node: that of an attribute, and the name of a namespace.  The elements hold no
text. -/
def textOf (d : Document) : Node → String
  | .attribute owner place => ((d.attribute? owner place).map Prod.snd).getD ""
  | .binding _ => namespaceName
  | .element _ | .root => ""

/-- The place of a node in document order. -/
def rank (d : Document) : Node → Nat × Nat
  | .root => (0, 0)
  | .element id => (id + 1, 0)
  | .binding owner => (owner + 1, 1)
  | .attribute owner place => (owner + 1, 2 + (d.entry owner).attributes.length - place)

/-- Whether a node does not stand after another. -/
def before (d : Document) (a b : Node) : Bool :=
  let (i, j) := d.rank a
  let (k, l) := d.rank b
  i < k || (i = k && j ≤ l)

/-- Removes repetitions that stand side by side. -/
def distinct : List Node → List Node
  | [] => []
  | [n] => [n]
  | m :: n :: rest => if m = n then distinct (n :: rest) else m :: distinct (n :: rest)

/-- The set of some nodes: each once and in document order. -/
def nodeSet (d : Document) (nodes : List Node) : List Node :=
  distinct (nodes.mergeSort d.before)

end Document

end ElementFinder.XPath
