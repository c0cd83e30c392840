import DateReviver.Error
import DateReviver.Journal
import DateReviver.Reading.Json
import DateReviver.Reading.Yaml

/-!
# Reading a text in a format

Documents, and the pieces of them that may stand alone: schemas and operations.
-/

namespace DateReviver.OpenApi

open DateReviver.Reading

/-- Read a text as the encoding of its format says. -/
def readText? {α : Type}
    (read : {m : Type → Type} → {ν : Type} → [Monad m] → [MonadExcept Unit m] →
      Encoding m ν → ν → m α) (format : DocumentFormat) (text : String) : Option α :=
  match format with
  | .json => Reading.Json.parse? (read Reading.Json.encoding) text
  | .yaml => Reading.Yaml.parse? (fun encoding => read encoding) text

def Document.parse (format : DocumentFormat) (text : String) :
    Except GenerationError Document :=
  match readText? Encoding.document format text with
  | some doc => .ok doc
  | none => .error .unreadableDocument

def Schema.parse? (format : DocumentFormat) (text : String) : Option Schema :=
  readText? Encoding.schema format text

def Operation.parse? (format : DocumentFormat) (text : String) : Option Operation :=
  readText? Encoding.operation format text

end DateReviver.OpenApi
