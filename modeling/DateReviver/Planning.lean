import DateReviver.Plan
import DateReviver.OpenApi.Reference

/-!
# From schemas to plans

Planning walks a schema in the order of the document. A reference becomes a delegation to the
named type, and where the name is new the type is planned on the spot. The name counts as known
before its own schema is looked at, so a type that leads back to itself meets a known name.

The walk returns what it found, not a changed collection: the new types in order of first
reference, each with its plan, or without one where planning it failed. It ends because every
step into a component uses up one of the names that are not yet known.
-/

namespace DateReviver

open DateReviver.OpenApi

/-- The types that a walk met for the first time, and its result. A type without a plan is one
whose planning failed. -/
structure Planned (α : Type) where
  found : List (String × Option Plan)
  result : Except GenerationError α

namespace Planned

variable {α β : Type}

/-- A result that met no new type. -/
def done (a : α) : Planned α :=
  ⟨[], .ok a⟩

/-- An error that met no new type. -/
def fail (e : GenerationError) : Planned α :=
  ⟨[], .error e⟩

def names (p : Planned α) : List String :=
  p.found.map Prod.fst

def map (f : α → β) (p : Planned α) : Planned β :=
  ⟨p.found, p.result.map f⟩

end Planned

mutual

/-- Plan a schema, with the names that are known so far. -/
def planSchema (doc : Document) (known : List String) (schema : Schema) : Planned Plan :=
  match schema with
  | .boolean _ => .done .primitive
  | .object k =>
      match k.reference with
      | some reference =>
          match _hresolve : doc.resolve reference with
          | .error e => .fail e
          | .ok (name, target) =>
              let delegation := Plan.delegate name k.isNullable
              if _hknown : known.contains name then .done delegation
              else
                let own := planSchema doc (name :: known) target
                ⟨(name, own.result.toOption) :: own.found, own.result.map fun _ => delegation⟩
      | none =>
          match _hinner : k.unwrapNullable with
          | some inner => (planSchema doc known inner).map Plan.orNull
          | none =>
              if k.anyOf.isSome then .done .primitive
              else
                match k.primaryType with
                | some "array" =>
                    match _hitems : k.items with
                    | some items => (planSchema doc known items).map (.array · k.isNullable)
                    | none => .done (.array .primitive k.isNullable)
                | some "boolean" | some "integer" | some "number" => .done .primitive
                | _ =>
                    if k.isObject then
                      match _hproperties : k.properties, _hvalues : k.mapValues with
                      | some _, some _ => .fail .conflictingObjectShape
                      | none, some values =>
                          (planSchema doc known values).map (.map · k.isNullable)
                      | some properties, none =>
                          (planProperties doc known properties).map (.object · k.isNullable)
                      | none, none => .fail .emptyObjectSchema
                    else if k.format = some "date-time" then .done (.date k.isNullable)
                    else .done .primitive
termination_by (doc.schemas.countOutside known, sizeOf schema)
decreasing_by
  · apply Prod.Lex.left
    exact OrderedMap.countOutside_cons_lt
      (OrderedMap.mem_keys_of_get? (Document.schema?_of_resolve _hresolve)) (by simpa using _hknown)
  · exact Prod.Lex.right _ (sizeOf_unwrapNullable_lt _hinner)
  · exact Prod.Lex.right _ (sizeOf_items_lt _hitems)
  · exact Prod.Lex.right _ (sizeOf_mapValues_lt _hvalues)
  · exact Prod.Lex.right _ (sizeOf_properties_lt _hproperties)

/-- Plan properties in their order. The first that fails ends the walk. -/
def planProperties (doc : Document) (known : List String)
    (properties : List (String × Schema)) : Planned (List (String × Plan)) :=
  match properties with
  | [] => .done []
  | (name, schema) :: rest =>
      let own := planSchema doc known schema
      match own.result with
      | .error e => ⟨own.found, .error e⟩
      | .ok plan =>
          let others := planProperties doc (known ++ own.names) rest
          ⟨own.found ++ others.found, others.result.map ((name, plan) :: ·)⟩
termination_by (doc.schemas.countOutside known, sizeOf properties)
decreasing_by
  · apply Prod.Lex.right
    simp only [List.cons.sizeOf_spec, Prod.mk.sizeOf_spec]
    omega
  · have hle := OrderedMap.countOutside_append_le doc.schemas known own.names
    rcases Nat.lt_or_eq_of_le hle with hlt | heq
    · exact Prod.Lex.left _ _ hlt
    · rw [heq]
      apply Prod.Lex.right
      simp only [List.cons.sizeOf_spec, Prod.mk.sizeOf_spec]
      omega

end

/-- Plan the schema of a named type, unless the name is known. -/
def planType (doc : Document) (known : List String) (typeName : String) (schema : Schema) :
    Planned Unit :=
  if known.contains typeName then .done ()
  else
    let own := planSchema doc (typeName :: known) schema
    ⟨(typeName, own.result.toOption) :: own.found, own.result.map fun _ => ()⟩

end DateReviver
