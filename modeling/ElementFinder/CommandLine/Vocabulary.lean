import ElementFinder.CommandLine.Basic

/-!
# The vocabulary of the command line

The words that lead from the program to a command, and the options that each command knows.
A scope is the place that the words so far have led to.  Some options are known in every scope
and count for the whole invocation.
-/

namespace ElementFinder

/-- The options of the command line. -/
inductive CommandOption where
  | settings
  | logLevel
  | debug
  | output
  | help
  | version
  | tree
  | all
  | first
  | parent
  | child
  | sibling
  | accessibility
deriving DecidableEq, Repr

namespace CommandOption

/-- The word of an option, which stands after two dashes. -/
def word : CommandOption → String
  | settings => "config"
  | logLevel => "log-level"
  | debug => "debug"
  | output => "output"
  | help => "help"
  | version => "version"
  | tree => "tree"
  | all => "all"
  | first => "first"
  | parent => "parent"
  | child => "child"
  | sibling => "sibling"
  | accessibility => "accessibility"

/-- The letter of an option, which stands after one dash. -/
def letter? : CommandOption → Option Char
  | settings => some 'c'
  | logLevel => some 'l'
  | debug => some 'd'
  | output => some 'o'
  | help => some 'h'
  | version => some 'V'
  | tree => some 't'
  | _ => none

/-- Whether an option has a value. -/
def takesValue : CommandOption → Bool
  | settings | logLevel | output | tree | parent | child | sibling => true
  | debug | help | version | all | first | accessibility => false

/-- Whether a value is allowed: files have a name, and output has one of its forms. -/
def accepts (o : CommandOption) (value : String) : Bool :=
  match o with
  | settings | tree => value != ""
  | output => (OutputFormat.ofName? value).isSome
  | _ => true

/-- The options that are known in every scope. -/
def everywhere : List CommandOption :=
  [settings, logLevel, debug, output, help, version]

end CommandOption

/-- The places that the words of a command line lead to. -/
inductive CommandScope where
  | top
  | resolve
  | parent
  | sibling
  | parseChain
  | xml
  | pageSource
  | types
  | settings
  | showSettings
  | settingsPath
  | version
deriving DecidableEq, Repr

namespace CommandScope

/-- The words that lead from the program to a scope. -/
def path : CommandScope → List String
  | top => []
  | resolve => ["resolve"]
  | parent => ["parent"]
  | sibling => ["sibling"]
  | parseChain => ["parse-chain"]
  | xml => ["xml"]
  | pageSource => ["page-source"]
  | types => ["types"]
  | settings => ["config"]
  | showSettings => ["config", "show"]
  | settingsPath => ["config", "path"]
  | version => ["version"]

/-- The scopes that one more word leads to. -/
def inner : CommandScope → List CommandScope
  | top => [resolve, parent, sibling, parseChain, xml, pageSource, types, settings, version]
  | settings => [showSettings, settingsPath]
  | _ => []

/-- The scope that a word leads to. -/
def follow? (s : CommandScope) (word : String) : Option CommandScope :=
  s.inner.find? fun t => t.path = s.path ++ [word]

/-- The options that belong to a scope alone. -/
def own : CommandScope → List CommandOption
  | resolve => [.tree, .all, .first]
  | parent => [.tree, .all, .first, .parent, .child]
  | sibling => [.tree, .all, .first, .child, .sibling]
  | xml => [.tree]
  | pageSource => [.tree, .accessibility]
  | _ => []

/-- The number of operands. -/
def operandCount : CommandScope → Nat
  | resolve => 1
  | parseChain => 1
  | _ => 0

/-- All options of a scope. -/
def options (s : CommandScope) : List CommandOption :=
  CommandOption.everywhere ++ s.own

/-- The option with a word. -/
def optionOfWord? (s : CommandScope) (word : List Char) : Option CommandOption :=
  s.options.find? fun o => o.word.toList = word

/-- The option with a letter. -/
def optionOfLetter? (s : CommandScope) (c : Char) : Option CommandOption :=
  s.options.find? fun o => o.letter? = some c

/-- The full name of a scope: the program and the words that lead there. -/
def title (s : CommandScope) : String :=
  "-".intercalate ("uiloc-cli" :: s.path)

/-- How an option is written in a summary. -/
def optionUsage (o : CommandOption) : String :=
  let letter := (o.letter?.map fun c => "-" ++ c.toString ++ ", ").getD ""
  letter ++ "--" ++ o.word ++ (if o.takesValue then " <VALUE>" else "")

/-- A summary of what can stand in a scope. -/
def usage (s : CommandScope) : String :=
  let words := s.inner.filterMap fun t => t.path.getLast?
  let rest := if words.isEmpty then [] else ["Commands: " ++ ", ".intercalate words]
  let start := " ".intercalate ("Usage: uiloc-cli" :: s.path ++ ["[OPTIONS]"]) ++
    (if words.isEmpty then "" else " <COMMAND>") ++
    (if s.operandCount = 0 then "" else " <VALUE>")
  "\n".intercalate (start :: rest ++ s.options.map fun o => "  " ++ optionUsage o) ++ "\n"

end CommandScope

end ElementFinder
