import RestQuery.Cli.Run

/-!
# The program

Reads the files that the command line names, prints the outcome and ends with its code.
-/

open RestQuery

/-- What is found at a path. -/
def readFile (path : String) : IO File := do
  try
    return .ok (← IO.FS.readBinFile path).toList
  catch
    | .noFileOrDirectory .. => return .error .missing
    | .permissionDenied .. => return .error .denied
    | .inappropriateType _ 20 _ => return .error .notDirectory
    | .inappropriateType .. => return .error .directory
    | _ => return .error .missing

/-- The configuration file of the user, which stands in the directory for configurations. -/
def readHomeFile : IO File := do
  match ← IO.getEnv "XDG_CONFIG_HOME", ← IO.getEnv "HOME" with
  | some dir, _ => readFile (dir ++ "/" ++ Cli.programName ++ "/config.toml")
  | none, some dir => readFile (dir ++ "/.config/" ++ Cli.programName ++ "/config.toml")
  | none, none => return .error .missing

/-- Runs the program. -/
def main (words : List String) : IO UInt32 := do
  let configPath ← IO.getEnv "PGREST_AST_CONFIG"
  let paths := match Cli.Command.ofWords configPath words with
    | .ok command => command.paths
    | .error _ => []
  let found ← paths.mapM fun path => return (path, ← readFile path)
  let files : Cli.Files :=
    { home := ← readHomeFile
      read := fun path => ((found.find? (·.1 = path)).map (·.2)).getD (.error .missing) }
  let outcome := Cli.run files configPath words
  (← IO.getStdout).putStr outcome.output
  (← IO.getStderr).putStr outcome.report
  return outcome.code.toUInt32
