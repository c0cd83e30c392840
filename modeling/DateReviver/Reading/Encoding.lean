import DateReviver.Reading.Value

/-!
# Documents in any encoding

An encoding says how the values of a notation are taken for texts, tables, records and schemas.
Documents are read through it, so that every notation gives the same document for the same
content. `m` is what a reading may need besides: it can fail, and it may count its work.
-/

namespace DateReviver.Reading

open DateReviver.OpenApi

/-- How values `ν` of a notation are taken. -/
structure Encoding (m : Type → Type) (ν : Type) where
  /-- The value itself, or nothing if it stands for absence where a value is optional. -/
  present? : ν → m (Option ν)
  text : ν → m String
  table : ν → m (List (String × ν))
  /-- The fields of a record by name. None may be given twice, and others are dropped. Fields
  that are given in order instead may be left out after the first `least`. -/
  fields : (names : List String) → (least : Nat) → ν → m (String → Option ν)
  /-- The meaning of a value that is not yet known to be of any kind. -/
  value : ν → m Value

/-- Fields given by name, if none of those asked for is given twice. -/
def namedFields {ν : Type} (names : List String) (members : List (String × ν)) :
    Option (String → Option ν) :=
  if ((members.map Prod.fst).filter names.contains).Nodup then
    some fun name => members.lookup name
  else none

namespace Encoding

variable {m : Type → Type} [Monad m] [MonadExcept Unit m] {ν α : Type} (e : Encoding m ν)

def optional (read : ν → m α) : Option ν → m (Option α)
  | none => pure none
  | some field => do
      match ← e.present? field with
      | none => pure none
      | some field => some <$> read field

def entries (read : ν → m α) : List (String × ν) → m (List (String × α))
  | [] => pure []
  | (name, value) :: rest => do
      let own ← read value
      let others ← entries read rest
      pure ((name, own) :: others)

/-- Read a table. A name given twice keeps its first place and its last value. -/
def orderedMap (read : ν → m α) (value : ν) : m (OrderedMap α) := do
  return .ofList (← entries read (← e.table value))

/-- Read a table that may be missing, but not null. -/
def tableOrEmpty (read : ν → m α) : Option ν → m (OrderedMap α)
  | none => pure .empty
  | some value => e.orderedMap read value

def schema (value : ν) : m Schema := do
  match readSchema (← e.value value) with
  | some schema => pure schema
  | none => throw ()

def mediaType (value : ν) : m MediaType := do
  let field ← e.fields ["schema"] 1 value
  return ⟨← e.optional e.schema (field "schema")⟩

def response (value : ν) : m Response := do
  let field ← e.fields ["$ref", "content"] 2 value
  let reference ← e.optional e.text (field "$ref")
  let content ← e.optional (e.orderedMap e.mediaType) (field "content")
  return ⟨reference, content⟩

def operation (value : ν) : m Operation := do
  let field ← e.fields ["operationId", "responses"] 1 value
  let operationId ← e.optional e.text (field "operationId")
  let responses ← e.tableOrEmpty e.response (field "responses")
  return ⟨operationId, responses⟩

def pathItem (value : ν) : m PathItem := do
  let field ← e.fields (HttpMethod.all.map HttpMethod.key) 5 value
  let get ← e.optional e.operation (field "get")
  let post ← e.optional e.operation (field "post")
  let put ← e.optional e.operation (field "put")
  let patch ← e.optional e.operation (field "patch")
  let delete ← e.optional e.operation (field "delete")
  return { get, post, put, patch, delete }

def components (value : ν) : m Components := do
  let field ← e.fields ["schemas"] 1 value
  return ⟨← e.optional (e.orderedMap e.schema) (field "schemas")⟩

def document (value : ν) : m Document := do
  let field ← e.fields ["paths", "components"] 2 value
  let paths ← e.tableOrEmpty e.pathItem (field "paths")
  let components ← e.optional e.components (field "components")
  return ⟨paths, components⟩

end Encoding

end DateReviver.Reading
