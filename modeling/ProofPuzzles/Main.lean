import ProofPuzzles.CommandLine.Run

/-!
# The program

Reads the arguments, looks at the configuration file that they need, and writes the answer.
-/

open ProofPuzzles ProofPuzzles.CommandLine

/-- What stands at a path of the file system. -/
def pathEntry (path : String) : IO Config.PathEntry := do
  try
    return .file (← IO.FS.readFile path)
  catch
    | .noFileOrDirectory _ _ _ => return .missing
    | _ => return .directory

/-- Writes how the program ends and returns its code. -/
def finish : Outcome → IO UInt32
  | .finished code out err => do
    IO.print (written out)
    IO.eprint (written err)
    return code.toUInt32
  | .crashed crash => do
    IO.eprintln crash.message
    return 1

def main (args : List String) : IO UInt32 := do
  match readRequest args with
  | .error e =>
    IO.eprint e.text
    return 2
  | .ok request =>
    let configPath? ← IO.getEnv Config.pathVariable
    let entry ← match request.configPath? configPath? with
      | some path => pathEntry path
      | none => pure .missing
    let freshSeed ← IO.rand 0 0x4000000000000000
    finish (request.run ⟨fun _ => entry, configPath?, freshSeed⟩)
