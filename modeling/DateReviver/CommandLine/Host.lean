/-!
# What a run asks of its surroundings

A run reads and writes files by their paths. It sees them through a host, so that the same run
can be carried out on a real file system and on one that is only a value.
-/

namespace DateReviver.CommandLine

/-- The surroundings of a run. A failure has a text that says why. -/
structure Host (m : Type → Type) where
  workingDirectory : m (Except String String)
  exists? : String → m Bool
  readText : String → m (Except String String)
  /-- Make a directory and those that it stands in, unless they are there. -/
  createDirectories : String → m (Except String Unit)
  writeText : String → String → m (Except String Unit)

end DateReviver.CommandLine
