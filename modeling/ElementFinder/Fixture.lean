import ElementFinder.Attributes.Data
import ElementFinder.Data.JsonReading
import ElementFinder.Yaml.Meaning

/-!
# Fixtures

A fixture is a tree of attributes written in a data file.  A node is a record that holds the
attributes of the element beside a list of its children.  Children are read where they
stand; the attributes of a node are read after its last entry.
-/

namespace ElementFinder

/-- A tree of attributes. -/
inductive Fixture where
  | mk (attributes : Attributes) (children : List Fixture)
deriving Inhabited

/-- Why data is not a fixture, and which child of which child is at fault. -/
structure FixtureFault where
  path : List Nat
  fault : ReadFault
deriving DecidableEq, Repr

/-- A fault of a node seen from its parent. -/
def FixtureFault.below (index : Nat) (f : FixtureFault) : FixtureFault :=
  { f with path := index :: f.path }

/-- The place of a node below the top: the list of children and the index at each level. -/
def FixtureFault.place (path : List Nat) : String :=
  ".".intercalate (path.map fun i => "children[" ++ toString i ++ "]")

/-- The same fault with the place of the node in its sentence. -/
def FixtureFault.located (f : FixtureFault) : FixtureFault :=
  match f.path, f.fault with
  | _ :: _, .rule sentence => ⟨f.path, .rule (place f.path ++ ": " ++ sentence)⟩
  | _, _ => f

namespace Fixture

/-- The attributes of the top node. -/
def attributes : Fixture → Attributes
  | mk a _ => a

/-- The trees below the top node. -/
def children : Fixture → List Fixture
  | mk _ cs => cs

mutual

/-- The number of nodes. -/
def count : Fixture → Nat
  | mk _ cs => 1 + countAll cs

/-- The number of nodes in all. -/
def countAll : List Fixture → Nat
  | [] => 0
  | f :: rest => count f + countAll rest

end

/-- Reads the entries of a node other than its children as attributes. -/
def readAttributes (entries : List (Data × Data)) : Except FixtureFault Attributes :=
  (Attributes.ofData (.record entries)).mapError fun fault => ⟨[], fault⟩

mutual

/-- Reads a fixture. -/
def ofData : Data → Except FixtureFault Fixture
  | .record entries => ofEntries [] none entries
  | .blank => .ok (.mk {} [])
  | _ => .error ⟨[], .shape⟩

/-- Reads the entries of a node in order; `kept` holds the entries passed that are not
children, the last first. -/
def ofEntries (kept : List (Data × Data)) (found : Option (List Fixture)) :
    List (Data × Data) → Except FixtureFault Fixture
  | [] =>
    match readAttributes kept.reverse with
    | .error e => .error e
    | .ok a => .ok (.mk a (found.getD []))
  | (.text "children", d) :: rest =>
    match found with
    | some _ => .error ⟨[], .shape⟩
    | none =>
      match ofChildren d with
      | .error e => .error e
      | .ok children => ofEntries kept (some children) rest
  | (.text key, d) :: rest =>
    if d.isIntact then ofEntries ((.text key, d) :: kept) found rest
    else .error ⟨[], .shape⟩
  | (.malformed, _) :: _ => .error ⟨[], .shape⟩
  | (.list _, _) :: _ => .error ⟨[], .shape⟩
  | (.record _, _) :: _ => .error ⟨[], .shape⟩
  | (_, d) :: rest => if d.isIntact then ofEntries kept found rest else .error ⟨[], .shape⟩

/-- Reads the list of children. -/
def ofChildren : Data → Except FixtureFault (List Fixture)
  | .list items => ofItems 0 items
  | .blank => .ok []
  | _ => .error ⟨[], .shape⟩

/-- Reads the children from a place on. -/
def ofItems (index : Nat) : List Data → Except FixtureFault (List Fixture)
  | [] => .ok []
  | d :: rest =>
    match ofData d with
    | .error e => .error (e.below index)
    | .ok f =>
      match ofItems (index + 1) rest with
      | .error e => .error e
      | .ok fs => .ok (f :: fs)

end

mutual

/-- A fixture as a record; an empty list of children is left out. -/
def toData : Fixture → Data
  | mk a children =>
    .object (a.toEntries ++
      (if children.isEmpty then [] else [("children", Data.list (allToData children))]))

/-- `toData` of each fixture. -/
def allToData : List Fixture → List Data
  | [] => []
  | f :: rest => toData f :: allToData rest

end

/-- The fixture of a document, which must hold nothing else. -/
def ofDocument (d : Document) : Except FixtureFault Fixture :=
  match ofData d.value with
  | .error e => .error e
  | .ok f => if d.hasTrailer then .error ⟨[], .shape⟩ else .ok f

/-- Reads a JSON text as a fixture. -/
def ofJson (text : String) : Except FixtureFault Fixture :=
  ofDocument (Document.ofJson text)

/-- Reads a YAML text as a fixture; a sentence about a fault tells the place of the node. -/
def ofYaml (text : String) : Except FixtureFault Fixture :=
  (ofDocument (Document.ofYaml text)).mapError FixtureFault.located

/-- The characters after the last slash of a path. -/
def fileName (path : List Char) : List Char :=
  (path.reverse.takeWhile (· != '/')).reverse

/-- The extension of a path in lower case: what stands after the last point of its file name,
unless the name starts with that point. -/
def extension? (path : String) : Option String :=
  let name := (fileName path.toList).reverse
  let extension := name.takeWhile (· != '.')
  if name.length ≤ extension.length + 1 then none
  else some (String.ofList (extension.reverse.map Char.toLower))

/-- Reads the text of a file as its extension tells; without a known extension JSON is tried
first. -/
def ofFile (path text : String) : Except FixtureFault Fixture :=
  match extension? path with
  | some "json" => ofJson text
  | some "yaml" => ofYaml text
  | some "yml" => ofYaml text
  | _ =>
    match ofJson text with
    | .ok f => .ok f
    | .error _ => ofYaml text

end Fixture

end ElementFinder
