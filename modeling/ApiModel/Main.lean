import ApiModel.CommandLine
import ApiModel.Text.Transliteration

/-!
The program: it reads the environment and files of the machine, and prints what a run gives.
-/

namespace ApiModel.CommandLine

/-- The text of a file, if it can be read. -/
def readText? (path : String) : IO (Option String) := do
  try
    return some (← IO.FS.readFile path)
  catch _ => return none

/-- The texts of the files that a request needs: its configuration, and the documents of that. -/
def readTexts (request : Request) : IO (List (String × String)) := do
  let config ←
    match request.config with
    | none => pure []
    | some path => return ((← readText? path).map fun text => (path, text)).toList
  match request.loadConfig fun path => config.lookup path with
  | .error _ => return config
  | .ok settings =>
    let paths := settings.documents.filterMap fun origin => (filePathOf origin).toOption
    let documents ← paths.filterMapM fun path => do
      return (← readText? path).map fun text => (path, text)
    return config ++ documents

/-- The values of the environment that stand for flags. -/
def readVariables : IO (List (String × String)) :=
  (Flag.all.filterMap Flag.variableName?).filterMapM fun name => do
    return (← IO.getEnv name).map fun value => (name, value)

/-- Runs a command line on the files of the machine, its names spelled by `spell`. -/
def execute (spell : Text.Spelling) (commandLine : List String) : IO UInt32 := do
  let environment ← readVariables
  let texts ←
    match parse? environment commandLine with
    | none => pure []
    | some request => readTexts request
  let outcome := run spell environment (fun path => texts.lookup path) commandLine
  match outcome with
  | .failed error => IO.eprintln error.message
  | .misused => IO.eprintln "usage: resolve [flags]"
  | .printed _ => pure ()
  IO.print outcome.output
  return outcome.exitCode.toUInt32

end ApiModel.CommandLine

/-- Runs the command line. -/
def main (commandLine : List String) : IO UInt32 :=
  ApiModel.CommandLine.execute ApiModel.Text.transliterate commandLine
