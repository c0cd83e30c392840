import DateReviver.Error
import DateReviver.OpenApi.Document

/-!
# References to component schemas

A reference is followed only if it is `#/components/schemas/` and the name of a component.
-/

namespace DateReviver.OpenApi

/-- What a reference to a component schema starts with. -/
def componentRoot : String :=
  "#/components/schemas/"

/-- The type name that a reference leads to, whether or not there is such a component. -/
def referencedName? (reference : String) : Option String :=
  (componentRoot.toList.isPrefixOf? reference.toList).map String.ofList

/-- The component that a reference leads to, under its name. -/
def Document.resolve (doc : Document) (reference : String) :
    Except GenerationError (String × Schema) :=
  match referencedName? reference with
  | none => .error (.unsupportedReference reference)
  | some name =>
      match doc.schema? name with
      | none => .error (.unknownSchema reference name)
      | some schema => .ok (name, schema)

theorem Document.schema?_of_resolve {doc : Document} {reference name : String} {schema : Schema}
    (h : doc.resolve reference = .ok (name, schema)) : doc.schema? name = some schema := by
  unfold Document.resolve at h
  split at h
  · cases h
  · split at h
    · cases h
    · rename_i hschema
      cases h
      exact hschema

end DateReviver.OpenApi
