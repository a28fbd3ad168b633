import ElementFinder.Binary64.Basic

/-!
# Data

The value of a data text: what fixtures, configuration files and exported trees are
written in.  Records keep their entries in written order, repeated keys included, because
a reader of records may refuse repetitions.  Two leaves describe texts rather than values:
`blank` is a place where nothing is written, and `malformed` is the point where a text
stops being readable.  With the latter a reader can judge the entries before a fault first,
exactly as if it read the text from left to right.
-/

namespace ElementFinder

/-- A value of a data text. -/
inductive Data where
  | null
  | blank
  | malformed
  | bool (value : Bool)
  | int (value : Int)
  | float (value : Binary64)
  | text (value : String)
  | list (items : List Data)
  | record (entries : List (Data × Data))
deriving Inhabited

namespace Data

/-- A record whose keys are texts. -/
def object (entries : List (String × Data)) : Data :=
  .record (entries.map fun (key, value) => (.text key, value))

/-- The text of a text value. -/
def text? : Data → Option String
  | .text s => some s
  | _ => none

/-- The entries whose keys are texts. -/
def textEntries (entries : List (Data × Data)) : List (String × Data) :=
  entries.filterMap fun (key, value) => key.text?.map (·, value)

/-- The value of a key in a record; the last entry counts. -/
def get? (d : Data) (key : String) : Option Data :=
  match d with
  | .record entries => ((textEntries entries).reverse.find? fun e => e.1 = key).map Prod.snd
  | _ => none

/-- Puts a key into sorted entries, replacing an entry of the same key. -/
def insertKey (key : String) (value : Data) : List (String × Data) → List (String × Data)
  | [] => [(key, value)]
  | (k, v) :: rest =>
    if key = k then (key, value) :: rest
    else if key < k then (key, value) :: (k, v) :: rest
    else (k, v) :: insertKey key value rest

/-- Entries sorted by key, the last of each key. -/
def sortKeys (entries : List (String × Data)) : List (String × Data) :=
  entries.foldl (fun sorted e => insertKey e.1 e.2 sorted) []

mutual

/-- The same value with the entries of all records sorted by key and each key once. -/
def sorted : Data → Data
  | .list items => .list (sortedItems items)
  | .record entries => object (sortKeys (sortedEntries entries))
  | d => d

/-- `sorted` of each item. -/
def sortedItems : List Data → List Data
  | [] => []
  | item :: rest => sorted item :: sortedItems rest

/-- `sorted` of each value, with the keys that are texts. -/
def sortedEntries : List (Data × Data) → List (String × Data)
  | [] => []
  | (.text key, value) :: rest => (key, sorted value) :: sortedEntries rest
  | _ :: rest => sortedEntries rest

end

/-- Replaces or adds entries of a record with texts as keys, keeping the keys sorted. -/
def overwrite (base changes : Data) : Data :=
  match base, changes with
  | .record a, .record b => object (sortKeys (textEntries a ++ textEntries b))
  | d, _ => d

end Data

end ElementFinder
