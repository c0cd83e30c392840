import DateReviver.Proofs.Reading.Fields

/-!
# The shape of a document

A document is made of records of seven forms, of tables of such records under any names, of lists
and of plain values. The shape says of each form what fields it has and what stands in them, and
the whole of reading follows from that: the parts of a record are what is read of its fields.
-/

namespace DateReviver.Reading.Json

open DateReviver.OpenApi
open DateReviver.Json (Node)

/-- The records of a document. -/
inductive Form where
  | document
  | components
  | pathItem
  | operation
  | response
  | mediaType
  | schema

inductive Shape where
  | text
  | flag
  | type
  | record (form : Form)
  | table (entry : Shape)
  | list (item : Shape)

/-- A field of a record. Every field may be absent; one that is nullable is absent also where it
is null. -/
structure Field where
  name : String
  shape : Shape
  nullable : Bool

def Form.fields : Form → List Field
  | .document =>
      [⟨"paths", .table (.record .pathItem), false⟩, ⟨"components", .record .components, true⟩]
  | .components => [⟨"schemas", .table (.record .schema), true⟩]
  | .pathItem => HttpMethod.all.map fun method => ⟨method.key, .record .operation, true⟩
  | .operation =>
      [⟨"operationId", .text, true⟩, ⟨"responses", .table (.record .response), false⟩]
  | .response => [⟨"$ref", .text, true⟩, ⟨"content", .table (.record .mediaType), true⟩]
  | .mediaType => [⟨"schema", .record .schema, true⟩]
  | .schema =>
      [⟨"type", .type, true⟩, ⟨"$ref", .text, true⟩,
        ⟨"properties", .table (.record .schema), true⟩, ⟨"items", .record .schema, true⟩,
        ⟨"anyOf", .list (.record .schema), true⟩,
        ⟨"additionalProperties", .record .schema, true⟩, ⟨"format", .text, true⟩,
        ⟨"nullable", .flag, true⟩]

namespace Form

def names (form : Form) : List String :=
  form.fields.map Field.name

theorem names_nodup (form : Form) : form.names.Nodup := by
  cases form <;> decide

/-- Of a record that is given in order, the number of fields that may not be left out. -/
def least (form : Form) : Nat :=
  match form with
  | .operation => 1
  | form => form.fields.length

/-- Whether all of the record must have a meaning, also what no field asks for. -/
def isWhole : Form → Bool
  | .schema => true
  | _ => false

def Meaning : Form → Type
  | .document => Document
  | .components => Components
  | .pathItem => PathItem
  | .operation => Operation
  | .response => Response
  | .mediaType => MediaType
  | .schema => Schema

end Form

def Shape.Meaning : Shape → Type
  | .text => String
  | .flag => Bool
  | .type => TypeKeyword
  | .record form => form.Meaning
  | .table entry => OrderedMap entry.Meaning
  | .list item => List item.Meaning

/-- What stands in the fields of a record, where they are present. -/
def Parts : List Field → Type
  | [] => Unit
  | field :: rest => Option field.shape.Meaning × Parts rest

/-- A record made of its parts. -/
def assemble : (form : Form) → Parts form.fields → form.Meaning
  | .document, (paths, components, ()) => Document.mk (paths.getD .empty) components
  | .components, (schemas, ()) => Components.mk schemas
  | .pathItem, (get, post, put, patch, delete, ()) => PathItem.mk get post put patch delete
  | .operation, (operationId, responses, ()) => Operation.mk operationId (responses.getD .empty)
  | .response, (reference, content, ()) => Response.mk reference content
  | .mediaType, (schema, ()) => MediaType.mk schema
  | .schema, (type, reference, properties, items, anyOf, additionalProperties, format, nullable, ()) =>
      Schema.object
        { type, reference, properties := properties.map OrderedMap.entries, items, anyOf,
          additionalProperties, format, nullable }

/-! ## Reading -/

def Form.read : (form : Form) → Place → Option form.Meaning
  | .document => encoding.document
  | .components => encoding.components
  | .pathItem => encoding.pathItem
  | .operation => encoding.operation
  | .response => encoding.response
  | .mediaType => encoding.mediaType
  | .schema => encoding.schema

def Shape.read : (shape : Shape) → Place → Option shape.Meaning
  | .text => encoding.text
  | .flag => Json.flag
  | .type => typeKeyword
  | .record form => form.read
  | .table entry => encoding.orderedMap entry.read
  | .list item => readItems item.read

/-- Read a field. Where it is nullable and null, it is absent. -/
def Field.read (field : Field) (written : Option Place) : Option (Option field.shape.Meaning) :=
  if field.nullable then encoding.optional field.shape.read written
  else
    match written with
    | none => some none
    | some own => (field.shape.read own).map some

/-- Read all fields of a record and make something of them. -/
def readParts {α : Type} : (fields : List Field) → (String → Option Place) → (Parts fields → α) →
    Option α
  | [], _, make => some (make ())
  | field :: rest, written, make =>
      (field.read (written field.name)).bind fun part =>
        readParts rest written fun others => make (part, others)

/-- A record read from its fields. -/
def Form.readFields (form : Form) (place : Place) : Option form.Meaning :=
  (encoding.fields form.names form.least place).bind fun written =>
    readParts form.fields written (assemble form)

theorem bind_tableOrEmpty {α β : Type} (read : Place → Option α) (written : Option Place)
    (make : OrderedMap α → Option β) : (encoding.tableOrEmpty read written).bind make =
      (match written with
        | none => some none
        | some own => (encoding.orderedMap read own).map some).bind fun part =>
          make (part.getD .empty) := by
  cases written with
  | none => rfl
  | some own =>
      show (encoding.orderedMap read own).bind make =
        ((encoding.orderedMap read own).map some).bind _
      cases encoding.orderedMap read own <;> rfl

/-- A record is made of what is read of its fields. -/
theorem Form.read_eq {form : Form} (hform : form.isWhole = false) (place : Place) :
    form.read place = form.readFields place := by
  cases form with
  | schema => cases hform
  | components | pathItem | response | mediaType => rfl
  | document =>
      show (encoding.fields _ _ _).bind _ = (encoding.fields _ _ _).bind _
      congr 1
      funext written
      exact bind_tableOrEmpty encoding.pathItem (written "paths") _
  | operation =>
      show (encoding.fields _ _ _).bind _ = (encoding.fields _ _ _).bind _
      congr 1
      funext written
      show (encoding.optional encoding.text (written "operationId")).bind _ =
        (encoding.optional encoding.text (written "operationId")).bind _
      congr 1
      funext operationId
      exact bind_tableOrEmpty encoding.response (written "responses") _

theorem bind_schemaTable {α : Type} (written : Option Place)
    (make : Option (List (String × Schema)) → Option α) :
    (encoding.optional schemaTable written).bind make =
      (encoding.optional (encoding.orderedMap encoding.schema) written).bind fun part =>
        make (part.map OrderedMap.entries) := by
  rw [optional_eq, optional_eq]
  cases given? written with
  | none => rfl
  | some own =>
      show (((encoding.orderedMap encoding.schema own).map OrderedMap.entries).map some).bind make =
        ((encoding.orderedMap encoding.schema own).map some).bind _
      cases encoding.orderedMap encoding.schema own <;> rfl

/-- So is a schema that is not a Boolean, if all of it has a meaning. -/
theorem Form.read_schema {place : Place} (hbool : ∀ b, place.node ≠ .bool b) :
    Form.schema.read place =
      (encoding.value place).bind fun _ => Form.schema.readFields place := by
  show encoding.schema place = _
  rw [schema_eq_keywords hbool]
  congr 1
  funext _
  show (encoding.fields _ _ _).bind _ = (encoding.fields _ _ _).bind _
  congr 1
  funext written
  show (encoding.optional typeKeyword (written "type")).bind _ =
    (encoding.optional typeKeyword (written "type")).bind _
  congr 1
  funext type
  show (encoding.optional encoding.text (written "$ref")).bind _ =
    (encoding.optional encoding.text (written "$ref")).bind _
  congr 1
  funext reference
  exact bind_schemaTable (written "properties") _

theorem readParts_congr {α : Type} {fields : List Field} {written written' : String → Option Place}
    (h : ∀ field ∈ fields, field.read (written field.name) = field.read (written' field.name))
    (make : Parts fields → α) : readParts fields written make = readParts fields written' make := by
  induction fields with
  | nil => rfl
  | cons field rest ih =>
      rw [List.forall_mem_cons] at h
      rw [readParts, readParts, h.1]
      congr 1
      funext part
      exact ih h.2 _

theorem readParts_eq_none {α : Type} {fields : List Field} {written : String → Option Place}
    {field : Field} (hmem : field ∈ fields) (h : field.read (written field.name) = none)
    (make : Parts fields → α) : readParts fields written make = none := by
  induction fields with
  | nil => cases hmem
  | cons first rest ih =>
      rw [readParts]
      rcases List.mem_cons.1 hmem with rfl | hrest
      · rw [h, Option.bind_none]
      · rw [Option.bind_eq_none_iff]
        intro part _
        exact ih hrest _

/-- What is read of a field that is not null. -/
theorem Field.read_some {field : Field} {own : Place} (h : own.node ≠ .null) :
    field.read (some own) = (field.shape.read own).map some := by
  unfold Field.read
  split
  · rw [optional_eq, given?_some_of_ne h]
  · rfl

theorem Field.read_null {field : Field} {own : Place} (hnullable : field.nullable = true)
    (h : own.node = .null) : field.read (some own) = field.read none := by
  rw [Field.read, Field.read, if_pos hnullable, if_pos hnullable, optional_eq,
    given?_some_of_null h]
  rfl

/-- A field where it is present. -/
def Field.given (field : Field) (written : Option Place) : Option Place :=
  if field.nullable then given? written else written

theorem Field.of_given (field : Field) {written : Option Place} {own : Place}
    (h : field.given written = some own) : written = some own := by
  unfold Field.given at h
  split at h
  · exact (Option.filter_eq_some_iff.1 h).1
  · exact h

theorem Field.read_eq (field : Field) (written : Option Place) : field.read written =
    match field.given written with
    | none => some none
    | some own => (field.shape.read own).map some := by
  unfold Field.read Field.given
  by_cases hnullable : field.nullable = true
  · rw [if_pos hnullable, if_pos hnullable]
    exact optional_eq field.shape.read written
  · rw [if_neg hnullable, if_neg hnullable]

theorem Form.eq_of_name {form : Form} {field other : Field} (hfield : field ∈ form.fields)
    (hother : other ∈ form.fields) (h : field.name = other.name) : field = other :=
  List.inj_on_of_nodup_map form.names_nodup hfield hother h

end DateReviver.Reading.Json
