import DateReviver.OpenApi.Document

/-!
# Values and the schemas they describe

A value is what a piece of text means before anything is known about its place: scalars have
found their type, lists and records their items. A schema is read from such a value in the same
way whatever notation the value was written in.

A record may be given by its fields in their fixed order instead of by name. A field that is null
is absent.
-/

namespace DateReviver.Reading

open DateReviver.OpenApi

/-- A value without its notation. Of numbers only those are told apart that can number a field. -/
inductive Value where
  | null
  | bool (value : Bool)
  | natural (value : Nat)
  | number
  | text (value : String)
  | list (items : List Value)
  | record (entries : List (Value × Value))

namespace Value

/-- The place of the field that a key stands for, by name or by number; outer nothing for a key
that can stand for no field, inner nothing for a field that is not asked for. -/
def fieldPlace? (names : List String) : Value → Option (Option Nat)
  | .text name => some (names.findIdx? (· == name))
  | .natural place => some (if place < names.length then some place else none)
  | _ => none

/-- Whether a value gives fields of these names: as a list it gives all of them in order, as a
record none of them twice. -/
def givesFields (names : List String) : Value → Bool
  | .list items => items.length == names.length
  | .record entries =>
      match entries.mapM fun entry => entry.1.fieldPlace? names with
      | none => false
      | some places => (places.filterMap id).Nodup
  | _ => false

/-- The field at a place, absent if it is null. -/
def field? (names : List String) (place : Nat) (value : Value) : Option Value :=
  let given : Option Value :=
    match value with
    | .list items => items[place]?
    | .record entries =>
        (entries.find? fun entry => entry.1.fieldPlace? names == some (some place)).map Prod.snd
    | _ => none
  given.filter fun field =>
    match field with
    | .null => false
    | _ => true

theorem sizeOf_field?_lt {names : List String} {place : Nat} {value field : Value}
    (h : value.field? names place = some field) : sizeOf field < sizeOf value := by
  unfold field? at h
  have hgiven := (Option.filter_eq_some_iff.1 h).1
  cases value with
  | list items =>
      have hmem := List.sizeOf_lt_of_mem (List.mem_of_getElem? hgiven)
      simp
      omega
  | record entries =>
      obtain ⟨entry, hfind, rfl⟩ := Option.map_eq_some_iff.1 hgiven
      have hmem := List.sizeOf_lt_of_mem (List.mem_of_find?_eq_some hfind)
      cases entry
      simp at hmem ⊢
      omega
  | null => simp at hgiven
  | bool => simp at hgiven
  | natural => simp at hgiven
  | number => simp at hgiven
  | text => simp at hgiven

end Value

def readText : Value → Option String
  | .text value => some value
  | _ => none

def readBool : Value → Option Bool
  | .bool value => some value
  | _ => none

/-- The keyword `type`: a text or a list of texts. -/
def readType : Value → Option TypeKeyword
  | .text name => some (.one name)
  | .list items => (items.mapM readText).map .several
  | _ => none

def readOptional {α : Type} (read : Value → Option α) : Option Value → Option (Option α)
  | none => some none
  | some value => (read value).map some

/-- The keywords of a schema, in their fixed order. -/
def keywordNames : List String :=
  ["type", "$ref", "properties", "items", "anyOf", "additionalProperties", "format", "nullable"]

mutual

def readSchema (value : Value) : Option Schema :=
  match value with
  | .bool b => some (.boolean b)
  | value =>
      if value.givesFields keywordNames then do
        let type ← readOptional readType (value.field? keywordNames 0)
        let reference ← readOptional readText (value.field? keywordNames 1)
        let properties ← readSchemaTable value 2
        let items ← readSchemaField value 3
        let anyOf ← readSchemaList value 4
        let additionalProperties ← readSchemaField value 5
        let format ← readOptional readText (value.field? keywordNames 6)
        let nullable ← readOptional readBool (value.field? keywordNames 7)
        return .object
          { type, reference, properties, items, anyOf, additionalProperties, format, nullable }
      else none
termination_by (sizeOf value, 1)
decreasing_by all_goals exact Prod.Lex.right _ (by decide)

def readSchemaField (value : Value) (place : Nat) : Option (Option Schema) :=
  match _h : value.field? keywordNames place with
  | none => some none
  | some field => (readSchema field).map some
termination_by (sizeOf value, 0)
decreasing_by exact Prod.Lex.left _ _ (Value.sizeOf_field?_lt _h)

/-- The list of schemas in a field, which may be absent. -/
def readSchemaList (value : Value) (place : Nat) : Option (Option (List Schema)) :=
  match _h : value.field? keywordNames place with
  | none => some none
  | some (.list members) => (readSchemas members).map some
  | some _ => none
termination_by (sizeOf value, 0)
decreasing_by exact Prod.Lex.left _ _ (Nat.lt_trans (by simp) (Value.sizeOf_field?_lt _h))

/-- The table of schemas in a field, which may be absent. A name given twice keeps its first place
and its last schema. -/
def readSchemaTable (value : Value) (place : Nat) : Option (Option (List (String × Schema))) :=
  match _h : value.field? keywordNames place with
  | none => some none
  | some (.record entries) =>
      (readSchemaEntries entries).map fun named => some (OrderedMap.ofList named).entries
  | some _ => none
termination_by (sizeOf value, 0)
decreasing_by exact Prod.Lex.left _ _ (Nat.lt_trans (by simp) (Value.sizeOf_field?_lt _h))

def readSchemas (values : List Value) : Option (List Schema) :=
  match values with
  | [] => some []
  | value :: rest => do
      let schema ← readSchema value
      let others ← readSchemas rest
      return schema :: others
termination_by (sizeOf values, 0)
decreasing_by all_goals exact Prod.Lex.left _ _ (by simp; try omega)

def readSchemaEntries (entries : List (Value × Value)) : Option (List (String × Schema)) :=
  match entries with
  | [] => some []
  | (key, value) :: rest => do
      let name ← readText key
      let schema ← readSchema value
      let others ← readSchemaEntries rest
      return (name, schema) :: others
termination_by (sizeOf entries, 0)
decreasing_by all_goals exact Prod.Lex.left _ _ (by simp; try omega)

end

end DateReviver.Reading
