import DateReviver.CommandLine.LogFilter
import DateReviver.CommandLine.Run

/-!
# The program

Runs on the file system of the machine.
-/

namespace DateReviver

open DateReviver.CommandLine

def attempting {α : Type} (action : IO α) : IO (Except String α) :=
  try
    return .ok (← action)
  catch e =>
    return .error (toString e)

def machine : Host IO where
  workingDirectory := attempting do
    return (← IO.currentDir).toString
  exists? path := do
    match ← attempting do ((← IO.currentDir) / path).pathExists with
    | .ok found => return found
    | .error _ => return false
  readText path := attempting (IO.FS.readFile path)
  createDirectories path := attempting (IO.FS.createDirAll path)
  writeText path text := attempting (IO.FS.writeFile path text)

end DateReviver

/-- Carry out the call, show its notes and its outputs, and exit with its code. -/
def main (arguments : List String) : IO UInt32 := do
  let shown := DateReviver.CommandLine.threshold?
    (← IO.getEnv DateReviver.CommandLine.logVariable)
  let outcome ← DateReviver.CommandLine.run DateReviver.machine arguments
  for note in outcome.notes do
    if DateReviver.CommandLine.isShown shown note then
      IO.eprintln note.line
  IO.print outcome.stdout
  IO.eprint outcome.stderr
  return outcome.code.toUInt32
