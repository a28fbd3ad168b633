import ElementFinder.CommandLine.Reading
import ElementFinder.CommandLine.Report
import ElementFinder.Resolution.Relative
import ElementFinder.Settings
import ElementFinder.Snapshot.Data
import ElementFinder.Xml.Text

/-!
# Running commands

A command runs in surroundings: the files and the environment variables that it can see.
The settings are read first and overridden by variables, then the level of logging is
checked, and only then the command is carried out.
-/

namespace ElementFinder

/-- The version of the program. -/
def programVersion : String := "0.1.0"

/-- What is found under the path of a file. -/
inductive FileContent where
  | missing
  | unreadable (reason : String)
  | text (content : String)
deriving DecidableEq, Repr

/-- What a command can see of the world around it. -/
structure Surroundings where
  file : String → FileContent
  environment : String → Option String

/-- Why a command fails. -/
inductive CommandFailure where
  | noSettingsPath
  | unreadableSettings (path reason : String)
  | invalidSettings (path : String)
  | invalidLogLevel
  | unusableTree (path : String) (cause : TreeError)
  | unresolved (locator : Locator) (cause : LocatorError)
  | noParent (parent child : Locator) (cause : LocatorError)
  | noSibling (sibling child : Locator) (cause : LocatorError)
  | tree (cause : LocatorError)
deriving DecidableEq, Repr

namespace CommandFailure

/-- The sentence that reports a failure. -/
def message : CommandFailure → String
  | noSettingsPath => "Failed to get config directory"
  | unreadableSettings path _ => "Failed to read config file " ++ path
  | invalidSettings path => "Invalid configuration in " ++ path
  | invalidLogLevel => "Invalid log level"
  | unusableTree path _ => "Failed to load tree fixture " ++ path
  | unresolved locator _ => "Failed to resolve " ++ locator.display
  | noParent parent child _ =>
    "Failed to find parent " ++ parent.display ++ " of " ++ child.display
  | noSibling sibling child _ =>
    "Failed to find sibling " ++ sibling.display ++ " of " ++ child.display
  | tree cause => cause.message

/-- The failure of a search behind a failure of a command. -/
def searchCause? : CommandFailure → Option LocatorError
  | unresolved _ cause => some cause
  | noParent _ _ cause => some cause
  | noSibling _ _ cause => some cause
  | _ => none

/-- The sentence that reports the cause of a failure, if there is more to say. -/
def cause? : CommandFailure → Option String
  | unreadableSettings _ reason => some reason
  | invalidSettings _ => some "Failed to parse config file"
  | invalidLogLevel => some "the level is error, warn, info, debug or trace, or 1 to 5"
  | unusableTree _ cause => some cause.message
  | f => f.searchCause?.map LocatorError.message

end CommandFailure

/-- The names of the levels of logging, from 1 on. -/
def logLevels : List String :=
  ["error", "warn", "info", "debug", "trace"]

/-- Whether a text names a level of logging, by its name in any case or by its number. -/
def isLogLevel (s : String) : Bool :=
  let digits := match s.toList with
    | '+' :: rest => rest
    | cs => cs
  let number := (natOfDigits? digits).getD 0
  (1 ≤ number && number ≤ logLevels.length) || logLevels.contains (s.map Char.toLower)

namespace Surroundings

/-- A path that goes on with more names. -/
def joinPath (base rest : String) : String :=
  if base.toList.getLast? = some '/' then base ++ rest else base ++ "/" ++ rest

/-- The path of the settings file when none is given. -/
def defaultSettingsPath? (s : Surroundings) : Option String :=
  let given := (s.environment "XDG_CONFIG_HOME").filter fun d => d.toList.head? = some '/'
  let home := (s.environment "HOME").filter fun d => d != ""
  (given.or (home.map fun h => joinPath h ".config")).map fun d =>
    joinPath d "uiloc/config.yaml"

/-- The settings kept in a file, put under the environment variables; without the file they
take their defaults. -/
def settings (s : Surroundings) (path : String) : Except CommandFailure Settings :=
  match s.file path with
  | .missing => .ok (Settings.override s.environment {})
  | .unreadable reason => .error (.unreadableSettings path reason)
  | .text content =>
    match Settings.ofYaml content with
    | none => .error (.invalidSettings path)
    | some settings => .ok (settings.override s.environment)

/-- The live tree of a file. -/
def liveTree (s : Surroundings) (path : String) : Except CommandFailure LiveTree :=
  match s.file path with
  | .missing => .error (.unusableTree path (.unreadableFile path "no such file"))
  | .unreadable reason => .error (.unusableTree path (.unreadableFile path reason))
  | .text content =>
    match Fixture.ofFile path content with
    | .ok f => .ok (LiveTree.ofFixture f)
    | .error e =>
      .error (.unusableTree path (.invalidFixture (e.fault.sentence?.getD "not a tree")))

end Surroundings

/-- Looks at a tree that nothing interferes with. -/
def Access.peek {α : Type} (x : Access α) (t : LiveTree) : Except CommandFailure α :=
  (x.runStill t).mapError .tree

/-- The snapshot of a whole tree. -/
def LiveTree.wholeSnapshot (t : LiveTree) : Except CommandFailure Snapshot :=
  (Access.snapshot (.ofNumber LiveTree.root)).peek t

/-- The report of a resolution. -/
def Resolution.describe (r : Resolution) (subject : String) (t : LiveTree) :
    Except CommandFailure MatchReport := do
  let rows ← r.elements.mapM fun h => do
    let s ← (Access.snapshot h).peek t
    return MatchRow.ofElement h ((s.attributes? 0).getD {})
  return ⟨subject, rows, r.diagnostics⟩

namespace Command

/-- Carries out a search and reports what it finds. -/
def search (s : Surroundings) (settings : Settings) (target : SearchTarget) (subject : String)
    (find : Handle → MatchMode → Access Resolution) (failure : LocatorError → CommandFailure) :
    Except CommandFailure CommandAnswer := do
  let t ← s.liveTree target.tree
  let mode := MatchMode.ofFirst (target.firstOnly settings.firstMatchOnly)
  let found ← ((find (.ofNumber LiveTree.root) mode).runStill t).mapError failure
  let report ← found.describe subject t
  return report.answer

/-- Carries out a command. -/
def run (s : Surroundings) (settingsPath : String) (settings : Settings) :
    Command → Except CommandFailure CommandAnswer
  | .resolve target locator =>
    let l := Locator.parse locator
    search s settings target l.display (l.resolve settings.resolver) (.unresolved l)
  | .parent target outer child =>
    let p := Locator.parse outer
    let c := Locator.parse child
    search s settings target (p.display ++ " containing " ++ c.display)
      (findParent settings.resolver p c) (.noParent p c)
  | .sibling target child beside =>
    let c := Locator.parse child
    let b := Locator.parse beside
    search s settings target (b.display ++ " near " ++ c.display)
      (findSibling settings.resolver c b) (.noSibling b c)
  | .parseChain chain => .ok (ParsedChain.ofText chain).answer
  | .xml tree => do
    let snapshot ← (← s.liveTree tree).wholeSnapshot
    return { text := (snapshot.markup settings.resolver.indexPathRoot).top.document ++ "\n" }
  | .pageSource tree accessibility => do
    let snapshot ← (← s.liveTree tree).wholeSnapshot
    let d := if accessibility then snapshot.accessibilityTree.toData
      else (snapshot.pageSource?.map PageNode.toData).getD .null
    return d.answer
  | .types => .ok ElementType.registryAnswer
  | .showSettings =>
    .ok { text := "# Effective configuration (" ++ settingsPath ++ ")\n" ++ settings.yaml }
  | .settingsPath => .ok { text := settingsPath ++ "\n" }
  | .version =>
    .ok { text := "uiloc " ++ programVersion ++ "\n"
          data := some (.object [("version", .text programVersion)]) }

end Command

namespace Invocation

/-- The files that an invocation reads. -/
def paths (s : Surroundings) (i : Invocation) : List String :=
  (i.settingsPath.or s.defaultSettingsPath?).toList ++ i.command.treePath?.toList

/-- Runs an invocation. -/
def run (s : Surroundings) (i : Invocation) : Except CommandFailure Printout := do
  match i.settingsPath.or s.defaultSettingsPath? with
  | none => throw .noSettingsPath
  | some path =>
    let settings ← s.settings path
    if !i.debug && !isLogLevel (i.logLevel.getD settings.logLevel) then throw .invalidLogLevel
    let answer ← i.command.run s path settings
    return answer.print i.format

end Invocation

/-- How a run of the program ends: its answer, a failure, or a refusal of the arguments. -/
inductive RunOutcome where
  | printed (p : Printout)
  | failed (f : CommandFailure)
  | refused (r : Refusal)
deriving DecidableEq, Repr

namespace RunOutcome

/-- The outcome of running the program with some arguments. -/
def ofArguments (s : Surroundings) (arguments : List String) : RunOutcome :=
  match Invocation.ofArguments arguments with
  | .error r => .refused r
  | .ok i =>
    match i.run s with
    | .ok p => .printed p
    | .error f => .failed f

/-- The exit code. -/
def exitCode : RunOutcome → Nat
  | printed _ => 0
  | failed _ => 1
  | refused .misuse => 2
  | refused _ => 0

/-- What is printed as the answer. -/
def output : RunOutcome → String
  | printed p => p.text
  | refused (.version scope) => scope.title ++ " " ++ programVersion ++ "\n"
  | refused (.help scope) => scope.usage
  | _ => ""

/-- The warnings, each of which may have several lines. -/
def warnings : RunOutcome → List String
  | printed p => p.warnings
  | _ => []

end RunOutcome

end ElementFinder
