/-!
# Errors of a generation

Each error ends the generation that meets it: a document that fails yields no code at all.
-/

namespace DateReviver

inductive GenerationError where
  | unreadableDocument
  | unsupportedReference (reference : String)
  /-- A reference leads to a component schema that is not there. -/
  | unknownSchema (reference name : String)
  | unknownType (name : String)
  /-- Two operations would get one name. -/
  | duplicateOperation (name : String)
  /-- An object schema lists properties and admits further entries. -/
  | conflictingObjectShape
  /-- An object schema says nothing about its entries. -/
  | emptyObjectSchema
  /-- A type without a plan was asked whether it holds dates. -/
  | prematureEmptinessCheck (typeName : String)
deriving DecidableEq

def GenerationError.message : GenerationError → String
  | .unreadableDocument => "Failed to parse OpenAPI spec"
  | .unsupportedReference reference =>
      "Not implemented ref: " ++ reference
        ++ " (only #/components/schemas/<name> is supported)"
  | .unknownSchema reference name =>
      "Reference " ++ reference ++ " points at unknown schema '" ++ name ++ "'"
  | .unknownType name => "Type '" ++ name ++ "' is not defined under components.schemas"
  | .duplicateOperation name =>
      "Duplicate operation name '" ++ name
        ++ "'. Each operation must have a unique identifier."
  | .conflictingObjectShape =>
      "Object schema declares both properties and additionalProperties"
  | .emptyObjectSchema => "Object schema has no properties and no additionalProperties"
  | .prematureEmptinessCheck typeName =>
      "Emptiness of '" ++ typeName ++ "' requested before its transformation was built"

end DateReviver
