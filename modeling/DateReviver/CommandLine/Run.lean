import DateReviver.CommandLine.Arguments
import DateReviver.CommandLine.Host
import DateReviver.Reading.Document

/-!
# Runs of the program

A run reads its configuration, its document, generates the code and writes it. The first failure
ends it, with a message and without any code.
-/

namespace DateReviver.CommandLine

open DateReviver.OpenApi

/-- What a run leaves behind besides files: its exit code, its outputs and its notes in order. -/
structure Outcome where
  code : Nat
  stdout : String
  stderr : String
  notes : List Note

def versionText : String :=
  "date-codegen 0.1.0\n"

def usageText : String :=
  "Usage: date-codegen generate [--schema <SCHEMA_FILE>] [-o <OUTPUT_FILE>]\n"
    ++ "         [--config <CONFIG_FILE>] [--type <TYPE_NAME>]... [--all-types]\n"
    ++ "         [--no-operations] [--require-all-properties]\n"

def helpText : String :=
  "Generate TypeScript functions that revive OpenAPI date-time strings as Date objects\n\n"
    ++ usageText

/-- A run in its surroundings: it fails with a message, and keeps notes. -/
abbrev Run (m : Type → Type) (α : Type) := ExceptT String (StateT (List Note) m) α

namespace Run

variable {m : Type → Type} [Monad m]

def note (notes : List Note) : Run m Unit :=
  modify (· ++ notes)

def ask {α : Type} (question : m α) : Run m α :=
  ExceptT.lift (StateT.lift question)

/-- Ask the surroundings for what may fail, and say what failed. -/
def attempt {α : Type} (what : String) (question : m (Except String α)) : Run m α := do
  match ← ask question with
  | .ok a => pure a
  | .error why => throw (what ++ ": " ++ why)

variable (host : Host m)

def loadConfig (path : String) : Run m Config := do
  let text ← attempt ("Failed to read config file " ++ path) (host.readText path)
  match Config.parse? text with
  | none => throw ("Failed to parse config file " ++ path ++ ": a setting cannot be read")
  | some config =>
      note [.configLoaded path]
      pure (config.relativeTo path)

/-- Read the configuration file of the working directory, if there is one. -/
def discoverConfig : Run m Config := do
  let directory ← attempt "Failed to determine current directory" host.workingDirectory
  let path := Path.join directory defaultConfigName
  if ← ask (host.exists? path) then loadConfig host path
  else
    note [.configAbsent directory]
    pure {}

def resolveConfig (flags : Flags) : Run m Config := do
  let config ←
    match flags.configFile with
    | some path => loadConfig host path
    | none => discoverConfig host
  pure (flags.override config)

def generateOutput (options : Options) (doc : Document) : Run m Output := do
  let (result, registry) := (generation options doc).run.run .empty
  note registry.journal.reverse
  match result with
  | .ok output => pure output
  | .error e => throw e.message

/-- Write the code to a file, in a directory that is made for it. -/
def writeOutput (path code : String) : Run m Unit := do
  match Path.parent? path with
  | none => pure ()
  | some directory =>
      if directory.isEmpty then pure ()
      else
        attempt "Failed to create output directory" (host.createDirectories directory)
  attempt ("Failed to write " ++ path) (host.writeText path code)

/-- Generate as the options say. The result is what goes to the standard output. -/
def generate (flags : Flags) : Run m String := do
  let config ← resolveConfig host flags
  match config.schemaFile with
  | none => throw "No schema file given. Pass --schema or set schema_file in the config"
  | some schemaFile =>
      let text ← attempt ("Failed to read " ++ schemaFile) (host.readText schemaFile)
      let format := DocumentFormat.ofPath schemaFile
      note [.documentRead schemaFile format]
      match Document.parse format text with
      | .error e => throw e.message
      | .ok doc =>
          let output ← generateOutput config.options doc
          match config.outputFile with
          | none => pure output.render
          | some path =>
              writeOutput host path output.render
              note [.outputWritten path output.toModule.length]
              pure ""

end Run

def run {m : Type → Type} [Monad m] (host : Host m) (arguments : List String) : m Outcome :=
  match parse arguments with
  | none => pure ⟨2, "", usageText, []⟩
  | some .help => pure ⟨0, helpText, "", []⟩
  | some .version => pure ⟨0, versionText, "", []⟩
  | some (.generate flags) => do
      let (result, notes) ← (Run.generate host flags).run.run []
      match result with
      | .ok stdout => pure ⟨0, stdout, "", notes⟩
      | .error message => pure ⟨1, "", message ++ "\n", notes⟩

end DateReviver.CommandLine
