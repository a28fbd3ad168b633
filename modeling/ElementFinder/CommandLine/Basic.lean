/-!
# Invocations

What a user asks for on a command line: a command with its operands, and what goes with every
command.  An invocation says nothing about how it was spelled.
-/

namespace ElementFinder

/-- The forms in which a command prints its answer. -/
inductive OutputFormat where
  | human
  | json
  | yaml
deriving DecidableEq, Repr

/-- The form with a name. -/
def OutputFormat.ofName? : String → Option OutputFormat
  | "human" => some .human
  | "json" => some .json
  | "yaml" => some .yaml
  | _ => none

/-- Where elements are sought and how many are wanted. -/
structure SearchTarget where
  tree : String
  all : Bool
  first : Bool
deriving DecidableEq, Repr

namespace SearchTarget

/-- Whether only the first match is wanted; the command line wins over a default. -/
def firstOnly (t : SearchTarget) (byDefault : Bool) : Bool :=
  if t.all then false else if t.first then true else byDefault

end SearchTarget

/-- The commands. -/
inductive Command where
  | resolve (target : SearchTarget) (locator : String)
  | parent (target : SearchTarget) (parent child : String)
  | sibling (target : SearchTarget) (child sibling : String)
  | parseChain (chain : String)
  | xml (tree : String)
  | pageSource (tree : String) (accessibility : Bool)
  | types
  | showSettings
  | settingsPath
  | version
deriving DecidableEq, Repr

/-- The tree file that a command reads, if it reads one. -/
def Command.treePath? : Command → Option String
  | resolve target _ => some target.tree
  | parent target _ _ => some target.tree
  | sibling target _ _ => some target.tree
  | xml tree => some tree
  | pageSource tree _ => some tree
  | _ => none

/-- A command with what goes with every command. -/
structure Invocation where
  settingsPath : Option String
  logLevel : Option String
  debug : Bool
  format : OutputFormat
  command : Command
deriving DecidableEq, Repr

end ElementFinder
