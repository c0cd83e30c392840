import DateReviver.Operations
import DateReviver.Proofs.Emission.Fitting

/-!
# Distinct names of properties

The properties of a schema stand in a table, so no two of them have the same name. Planning keeps
the names, so the properties of a plan have distinct names too.
-/

namespace DateReviver

open DateReviver.OpenApi

/-- The properties of every object in a schema have distinct names. -/
inductive OpenApi.Schema.Tidy : Schema → Prop
  | boolean {value : Bool} : Tidy (.boolean value)
  | object {k : Keywords Schema}
      (hnodup : ∀ properties, k.properties = some properties → (properties.map Prod.fst).Nodup)
      (hproperties : ∀ properties, k.properties = some properties →
        ∀ property ∈ properties, Tidy property.2)
      (hitems : ∀ items, k.items = some items → Tidy items)
      (hmembers : ∀ members, k.anyOf = some members → ∀ member ∈ members, Tidy member)
      (hvalues : ∀ values, k.additionalProperties = some values → Tidy values) :
      Tidy (.object k)

/-- The schemas of a document that planning starts from have distinct names of properties. -/
structure OpenApi.Document.Tidy (doc : Document) : Prop where
  components : ∀ name schema, doc.schema? name = some schema → schema.Tidy
  responses : ∀ endpoint ∈ endpoints doc, ∀ schema,
    successSchema endpoint.operation = .ok (some schema) → schema.Tidy

theorem Plan.Tidy.orNull {plan : Plan} (h : plan.Tidy) : plan.orNull.Tidy := by
  cases h with
  | primitive => exact .primitive
  | date => exact .date
  | delegate => exact .delegate
  | array h => exact .array h
  | map h => exact .map h
  | object hnodup h => exact .object hnodup h

theorem additionalProperties_of_mapValues {k : Keywords Schema} {values : Schema}
    (h : k.mapValues = some values) : k.additionalProperties = some values := by
  unfold Keywords.mapValues at h
  split at h
  · cases h
  · exact h

theorem TranslatesAll.names_eq {doc : Document} {schemas : List (String × Schema)}
    {plans : List (String × Plan)} (h : TranslatesAll doc schemas plans) :
    plans.map Prod.fst = schemas.map Prod.fst := by
  induction schemas generalizing plans with
  | nil =>
      cases h
      rfl
  | cons entry rest ih =>
      cases h with
      | cons _ hrest => rw [List.map_cons, List.map_cons, ih hrest]

mutual

theorem Shapes.tidy {doc : Document} {schema : Schema} {plan : Plan} :
    Shapes doc schema plan → schema.Tidy → plan.Tidy
  | .boolean, _ | .union .., _ | .scalar .., _ | .text .., _ => .primitive
  | .reference .., _ => .delegate
  | .date .., _ => .date
  | .bareArray .., _ => .array .primitive
  | .array _ _ hitems h, .object _ _ htidy _ _ => .array (Translates.tidy h (htidy _ hitems))
  | .map _ _ _ hvalues h, .object _ _ _ _ htidy =>
      .map (Translates.tidy h (htidy _ (additionalProperties_of_mapValues hvalues)))
  | .object _ _ hproperties _ h, .object hnodup htidy _ _ _ =>
      .object (h.names_eq ▸ hnodup _ hproperties) (TranslatesAll.tidy h (htidy _ hproperties))

/-- The plan of a tidy schema is tidy. -/
theorem Translates.tidy {doc : Document} {schema : Schema} {plan : Plan} :
    Translates doc schema plan → schema.Tidy → plan.Tidy
  | .shape h, htidy => Shapes.tidy h htidy
  | .wrapped _ hinner h, .object _ _ _ htidy _ => by
      obtain ⟨members, hmembers, hmem⟩ := mem_anyOf_of_unwrapNullable hinner
      exact (Translates.tidy h (htidy members hmembers _ hmem)).orNull

theorem TranslatesAll.tidy {doc : Document} {schemas : List (String × Schema)}
    {plans : List (String × Plan)} : TranslatesAll doc schemas plans →
      (∀ entry ∈ schemas, entry.2.Tidy) → ∀ property ∈ plans, property.2.Tidy
  | .nil, _, property, hmem => by cases hmem
  | .cons h hrest, htidy, property, hmem => by
      rcases List.mem_cons.1 hmem with rfl | htail
      · exact Translates.tidy h (htidy _ List.mem_cons_self)
      · exact TranslatesAll.tidy hrest
          (fun entry hentry => htidy entry (List.mem_cons_of_mem _ hentry)) property htail

end

end DateReviver
