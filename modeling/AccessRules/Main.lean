import AccessRules.CommandLine.Report

/-! The command line: it reads the configuration of the system and prints what a command says. -/

namespace AccessRules

/-- What is found at a path. -/
def readContent (path : String) : IO FileContent := do
  try
    return .bytes (← IO.FS.readBinFile path)
  catch
    | .noFileOrDirectory .. => return .missing
    | _ => return .directory

/-- The variables of the environment that are set. -/
def readEnvironment (names : List String) : IO (String → Option String) := do
  let values ← names.mapM fun name => do return (name, ← IO.getEnv name)
  return fun name => (values.lookup name).join

end AccessRules

open AccessRules in
/-- Runs a command and gives its exit code. -/
def main (args : List String) : IO UInt32 := do
  let file ← readContent Config.systemPath
  let environment ← readEnvironment Layer.variableNames
  match CommandLine.run (Config.load Config.systemPath file environment) args with
  | .ok text =>
    IO.print text
    return 0
  | .error failure =>
    IO.eprintln ("Error: " ++ failure.message)
    return failure.exitCode.toUInt32
