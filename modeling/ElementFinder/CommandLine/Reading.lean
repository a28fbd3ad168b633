import ElementFinder.CommandLine.Vocabulary

/-!
# Reading command lines

The arguments are read from left to right.  Words lead from scope to scope until the first
operand could be meant; options may stand in any order between them, with their values
attached or in the next argument; and after two dashes all arguments are operands.  The value
of an option is judged when the next option or operand begins, so a request for help or for
the version in an inner scope wins over a fault that is still unjudged outside.
-/

namespace ElementFinder

/-- Why there is no invocation: the command line cannot be used, or the user only wants to
know about a scope. -/
inductive Refusal where
  | misuse
  | help (scope : CommandScope)
  | version (scope : CommandScope)
deriving DecidableEq, Repr

/-- What has been read in one scope.  `pending` is the last option with its value, which may
be still to come. -/
structure CommandLevel where
  scope : CommandScope
  given : List (CommandOption × String) := []
  pending : Option (CommandOption × Option String) := none
  operands : List String := []
  operandsOnly : Bool := false
deriving DecidableEq, Repr

namespace CommandLevel

/-- The value of an option. -/
def value? (l : CommandLevel) (o : CommandOption) : Option String :=
  (l.given.find? fun g => g.1 = o).map Prod.snd

/-- Whether an option is given. -/
def has (l : CommandLevel) (o : CommandOption) : Bool :=
  (l.value? o).isSome

/-- Records an option; it may be given once, and its value must be allowed. -/
def give (l : CommandLevel) (o : CommandOption) (value : String) :
    Except Refusal CommandLevel :=
  if l.has o || !o.accepts value then .error .misuse
  else .ok { l with given := l.given ++ [(o, value)] }

/-- Judges the pending option. -/
def settle (l : CommandLevel) : Except Refusal CommandLevel :=
  match l.pending with
  | none => .ok l
  | some (_, none) => .error .misuse
  | some (o, some value) => { l with pending := none }.give o value

/-- Whether the next argument is the value of an option. -/
def awaitsValue (l : CommandLevel) : Bool :=
  match l.pending with
  | some (_, none) => true
  | _ => false

/-- Takes an option with a value that is attached to it, or with one to come. -/
def takeValued (l : CommandLevel) (o : CommandOption) (attached : Option (List Char)) :
    Except Refusal CommandLevel := do
  let l ← l.settle
  match attached with
  | some cs => l.give o (String.ofList cs)
  | none => return { l with pending := some (o, none) }

/-- Takes an option without a value. -/
def takeBare (l : CommandLevel) (o : CommandOption) : Except Refusal CommandLevel := do
  let l ← l.settle
  match o with
  | .help => throw (.help l.scope)
  | .version => throw (.version l.scope)
  | o => l.give o ""

/-- Takes the letters after one dash.  The first option with a value takes all that follows;
an equals sign before the value does not count. -/
def takeLetters (l : CommandLevel) : List Char → Except Refusal CommandLevel
  | [] => .ok l
  | c :: rest =>
    match l.scope.optionOfLetter? c with
    | none => .error .misuse
    | some o =>
      if o.takesValue then
        l.takeValued o (match rest with
          | [] => none
          | '=' :: value => some value
          | value => some value)
      else
        match l.takeBare o with
        | .error e => .error e
        | .ok l => l.takeLetters rest

/-- Takes the word after two dashes, with a value after an equals sign. -/
def takeWord (l : CommandLevel) (cs : List Char) : Except Refusal CommandLevel :=
  let word := cs.takeWhile (· != '=')
  let attached := match cs.drop word.length with
    | [] => none
    | _ :: value => some value
  match l.scope.optionOfWord? word with
  | none => .error .misuse
  | some o =>
    if o.takesValue then l.takeValued o attached
    else if attached.isSome then .error .misuse
    else l.takeBare o

/-- Takes an operand. -/
def takeOperand (l : CommandLevel) (argument : String) : Except Refusal CommandLevel := do
  let l ← l.settle
  if l.operands.length < l.scope.operandCount then
    return { l with operands := l.operands ++ [argument] }
  else throw .misuse

/-- Takes an argument that leads to no other scope. -/
def take (l : CommandLevel) (argument : String) : Except Refusal CommandLevel :=
  if l.operandsOnly then l.takeOperand argument
  else
    match argument.toList, l.pending with
    | ['-', '-'], _ => .ok { l with operandsOnly := true }
    | '-' :: '-' :: word, _ => l.takeWord word
    | '-' :: c :: letters, _ => l.takeLetters (c :: letters)
    | _, some (o, none) => .ok { l with pending := some (o, some argument) }
    | _, _ => l.takeOperand argument

/-- Where the target of a search is given. -/
def target? (l : CommandLevel) : Option SearchTarget :=
  if l.has .all && l.has .first then none
  else (l.value? .tree).map fun tree => ⟨tree, l.has .all, l.has .first⟩

/-- The command that a finished scope stands for; nothing that it needs may be missing. -/
def command? (l : CommandLevel) : Option Command :=
  match l.scope, l.operands with
  | .resolve, [locator] => do return .resolve (← l.target?) locator
  | .parent, _ => do return .parent (← l.target?) (← l.value? .parent) (← l.value? .child)
  | .sibling, _ => do return .sibling (← l.target?) (← l.value? .child) (← l.value? .sibling)
  | .parseChain, [chain] => some (.parseChain chain)
  | .xml, _ => (l.value? .tree).map .xml
  | .pageSource, _ => (l.value? .tree).map fun tree => .pageSource tree (l.has .accessibility)
  | .types, _ => some .types
  | .showSettings, _ => some .showSettings
  | .settingsPath, _ => some .settingsPath
  | .version, _ => some .version
  | _, _ => none

end CommandLevel

namespace Invocation

/-- The scope that a request for help is about. -/
def helpScope (s : CommandScope) : List String → Except Refusal CommandScope
  | [] => .ok s
  | word :: rest =>
    match s.follow? word with
    | some t => helpScope t rest
    | none => .error .misuse

/-- Reads arguments into levels, the innermost first. -/
def readLevels (outer : List CommandLevel) (l : CommandLevel) :
    List String → Except Refusal (List CommandLevel)
  | [] => .ok (l :: outer)
  | argument :: rest =>
    let leads := !l.operandsOnly && !l.awaitsValue
    match l.scope.follow? argument with
    | some inner =>
      if leads then readLevels (l :: outer) { scope := inner } rest
      else (l.take argument).bind fun l => readLevels outer l rest
    | none =>
      if leads && argument = "help" && !l.scope.inner.isEmpty then
        (helpScope l.scope rest).bind fun s => .error (.help s)
      else (l.take argument).bind fun l => readLevels outer l rest

/-- The invocation of finished levels; of an option given in several scopes the innermost
counts. -/
def ofLevels? (levels : List CommandLevel) : Option Invocation := do
  let innermost ← levels.head?
  let command ← innermost.command?
  let value? (o : CommandOption) : Option String := levels.findSome? fun l => l.value? o
  return {
    settingsPath := value? .settings
    logLevel := value? .logLevel
    debug := (value? .debug).isSome
    format := ((value? .output).bind OutputFormat.ofName?).getD .human
    command := command }

/-- Reads the arguments of the program. -/
def ofArguments (arguments : List String) : Except Refusal Invocation := do
  let levels ← readLevels [] { scope := .top } arguments
  let levels ← levels.mapM CommandLevel.settle
  match ofLevels? levels with
  | some i => return i
  | none => throw .misuse

end Invocation

end ElementFinder
