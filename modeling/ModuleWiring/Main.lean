import ModuleWiring.CommandLine.Run

/-!
# The program

Reads the files and variables that a command names and writes what it comes to.
-/

namespace ModuleWiring

def readText (path : String) : IO FileText := do
  try
    return .content (← IO.FS.readFile path)
  catch
    | .noFileOrDirectory .. => return .missing
    | _ => return .unreadable

def readFiles (paths : List String) : IO Files := do
  let texts ← paths.mapM fun path => do
    return (path, ← readText path)
  return Table.ofList texts

/-- Read the variables that settings may come from. -/
def readEnvironment : IO Environment := do
  let values ← Environment.names.filterMapM fun name => do
    return (← IO.getEnv name).map fun value => (name, value)
  return Table.ofList values

def writeLine : Line → IO Unit
  | .output text => IO.println text
  | .complaint text => IO.eprintln text

/-- Write what a run came to and give its code. -/
def finish (result : Transcript) : IO UInt32 := do
  result.lines.forM writeLine
  return result.code.toUInt32

def runProgram (arguments : List String) : IO UInt32 :=
  match Command.parse? arguments with
  | none => finish .misused
  | some command => do
      let files ← readFiles command.paths
      finish (command.run files (← readEnvironment))

end ModuleWiring

/-- Wire the bundles of a universe, or check their manifests. -/
def main (arguments : List String) : IO UInt32 :=
  ModuleWiring.runProgram arguments
