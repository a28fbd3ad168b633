import ElementFinder.CommandLine.Running

/-!
# The program

Reads the arguments, the environment variables and the files that the invocation names, runs
it, and prints what comes out of it.
-/

namespace ElementFinder

/-- The content of a file. -/
def readContent (path : String) : IO FileContent := do
  try
    return .text (← IO.FS.readFile path)
  catch
    | .noFileOrDirectory .. => return .missing
    | e => return .unreadable (toString e)

/-- The surroundings that an invocation can see. -/
def surroundingsOf (arguments : List String) : IO Surroundings := do
  let names := ["UILOC_LOG_LEVEL", "UILOC_FIRST_MATCH", "UILOC_REVERSE_ON_LAST",
    "XDG_CONFIG_HOME", "HOME"]
  let values ← names.mapM fun name => do return (name, ← IO.getEnv name)
  let environment (name : String) : Option String :=
    (values.find? fun v => v.1 = name).bind Prod.snd
  let unread : Surroundings := ⟨fun _ => .missing, environment⟩
  match Invocation.ofArguments arguments with
  | .error _ => return unread
  | .ok i =>
    let contents ← (i.paths unread).mapM fun path => do return (path, ← readContent path)
    let file (path : String) : FileContent :=
      ((contents.find? fun c => c.1 = path).map Prod.snd).getD .missing
    return ⟨file, environment⟩

/-- The lines that tell of a failure. -/
def failureText (o : RunOutcome) : String :=
  match o with
  | .failed f =>
    "Error: " ++ f.message ++ "\n" ++
      ((f.cause?.map fun cause => "\nCaused by:\n    " ++ cause ++ "\n").getD "")
  | .refused .misuse => "error: the arguments cannot be used; see --help\n"
  | _ => ""

end ElementFinder

open ElementFinder in
/-- Runs the program. -/
def main (arguments : List String) : IO UInt32 := do
  let outcome := RunOutcome.ofArguments (← surroundingsOf arguments) arguments
  IO.print outcome.output
  for warning in outcome.warnings do
    IO.eprintln ("warning: " ++ warning)
  IO.eprint (failureText outcome)
  return UInt32.ofNat outcome.exitCode
