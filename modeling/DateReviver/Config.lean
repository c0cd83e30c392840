import DateReviver.Config.Setting
import DateReviver.Generate
import DateReviver.Path

/-!
# The configuration of a run

Where the document is, where the code goes, and what to generate. A configuration file gives each
of its settings at most once, and no others. Its paths are relative to the directory that it
stands in.
-/

namespace DateReviver

/-- The name of the configuration file that is looked for. -/
def defaultConfigName : String :=
  "date-codegen.toml"

structure Config where
  schemaFile : Option String := none
  /-- The file for the code; without one it goes to the standard output. -/
  outputFile : Option String := none
  types : List String := []
  allTypes : Bool := false
  includeOperations : Bool := true
  requireAllProperties : Bool := false

namespace Config

def apply (c : Config) : String × Setting → Option Config
  | ("schema_file", .text path) => some { c with schemaFile := some path }
  | ("output_file", .text path) => some { c with outputFile := some path }
  | ("types", .texts names) => some { c with types := names }
  | ("all_types", .bool b) => some { c with allTypes := b }
  | ("include_operations", .bool b) => some { c with includeOperations := b }
  | ("require_all_properties", .bool b) => some { c with requireAllProperties := b }
  | _ => none

/-- The configuration of settings, if each is known, of its kind and given once. -/
def ofSettings? (settings : List (String × Setting)) : Option Config :=
  if (settings.map Prod.fst).Nodup then settings.foldlM apply {} else none

def parse? (text : String) : Option Config :=
  (settings? text).bind ofSettings?

/-- The configuration with its paths taken relative to the file that it was read from. -/
def relativeTo (c : Config) (path : String) : Config :=
  match Path.parent? path with
  | none => c
  | some directory =>
      { c with
        schemaFile := c.schemaFile.map (Path.join directory)
        outputFile := c.outputFile.map (Path.join directory) }

def options (c : Config) : Options :=
  { requireAllProperties := c.requireAllProperties
    types := c.types
    allTypes := c.allTypes
    includeOperations := c.includeOperations }

end Config

/-- The format of a document by the name of its file: YAML if it ends in `.yaml` or `.yml`, in any
case of letters, else JSON. -/
def DocumentFormat.ofPath (path : String) : DocumentFormat :=
  match Path.extension? path with
  | none => .json
  | some extension =>
      let extension := extension.map Char.toLower
      if extension = "yaml".toList ∨ extension = "yml".toList then .yaml else .json

end DateReviver
