import DateReviver.Text.Quoted
import DateReviver.OpenApi.Document

/-!
# The journal of a run

What a run has to say about its own progress, as data: each note has a level, a message and
fields. Which notes are shown, and where, is decided by the command line.
-/

namespace DateReviver

open DateReviver.Text

/-- The weight of a note, the gravest first. -/
inductive Level where
  | error
  | warn
  | info
  | debug
  | trace
deriving DecidableEq

namespace Level

/-- The place of a level in the order of detail. -/
def rank : Level → Nat
  | .error => 0
  | .warn => 1
  | .info => 2
  | .debug => 3
  | .trace => 4

def name : Level → String
  | .error => "ERROR"
  | .warn => "WARN"
  | .info => "INFO"
  | .debug => "DEBUG"
  | .trace => "TRACE"

end Level

inductive DocumentFormat where
  | json
  | yaml
deriving DecidableEq

def DocumentFormat.name : DocumentFormat → String
  | .json => "Json"
  | .yaml => "Yaml"

inductive Note where
  | planningType (typeName : String)
  | leaningOnOpenCycle (typeName : String) (pending : Nat)
  | emptinessDecided (typeName : String) (empty : Bool)
  | aliasInlined (typeName : String)
  | noJsonResponse (path : String) (method : OpenApi.HttpMethod)
  | operationPlanned (operation path : String)
  | planningComplete (methods operations : Nat)
  | functionsGenerated (functions operations : Nat)
  | configLoaded (path : String)
  | configAbsent (directory : String)
  | documentRead (path : String) (format : DocumentFormat)
  | outputWritten (path : String) (functions : Nat)

namespace Note

def level : Note → Level
  | .leaningOnOpenCycle .. | .emptinessDecided .. | .noJsonResponse .. => .trace
  | .planningType .. | .aliasInlined .. | .operationPlanned .. | .planningComplete ..
  | .configLoaded .. | .configAbsent .. | .documentRead .. => .debug
  | .functionsGenerated .. | .outputWritten .. => .info

def message : Note → String
  | .planningType .. => "Planning response transform."
  | .leaningOnOpenCycle .. => "Emptiness depends on an open cycle, keeping it provisional."
  | .emptinessDecided .. => "Emptiness decided."
  | .aliasInlined .. => "Date-time alias is converted inline, no function generated."
  | .noJsonResponse .. => "No JSON success response."
  | .operationPlanned .. => "Planned operation response."
  | .planningComplete .. => "Planning complete."
  | .functionsGenerated .. => "Generated date transforms."
  | .configLoaded .. => "Loaded generator config."
  | .configAbsent .. => "No config file found, using defaults."
  | .documentRead .. => "Read OpenAPI document."
  | .outputWritten .. => "Wrote date transforms."

/-- The fields of a note by name. Names from a document are quoted, paths are not. -/
def fields : Note → List (String × String)
  | .planningType typeName | .aliasInlined typeName => [("type_name", quoted typeName)]
  | .leaningOnOpenCycle typeName pending =>
      [("type_name", quoted typeName), ("pending", toString pending)]
  | .emptinessDecided typeName empty =>
      [("type_name", quoted typeName), ("empty", if empty then "true" else "false")]
  | .noJsonResponse path method => [("path", quoted path), ("method", quoted method.name)]
  | .operationPlanned operation path => [("operation", quoted operation), ("path", quoted path)]
  | .planningComplete methods operations =>
      [("methods", toString methods), ("operations", toString operations)]
  | .functionsGenerated functions operations =>
      [("functions", toString functions), ("operations", toString operations)]
  | .configLoaded path => [("path", path)]
  | .configAbsent directory => [("dir", directory)]
  | .documentRead path format => [("schema_file", path), ("format", format.name)]
  | .outputWritten path functions =>
      [("output_file", path), ("functions", toString functions)]

/-- A note on one line: its level, its message and its fields. -/
def line (n : Note) : String :=
  " ".intercalate
    (n.level.name :: n.message :: n.fields.map fun field => field.1 ++ "=" ++ field.2)

end Note

end DateReviver
