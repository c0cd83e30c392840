import DateReviver.Planning
import DateReviver.Proofs.OrderedMap

/-!
# The course of planning

Planning applies the first rule that fits a schema: references come before unions, these before
arrays and scalars, and these before objects and text. Each rule says which schemas are planned in
turn, with which names known, and what is made of their plans. That planning goes by these rules is
shown once, and with it that it comes to an end; whatever is said of planning follows by induction on
the rules that were applied.
-/

namespace DateReviver

open DateReviver.OpenApi

/-- Neither a reference nor a union: the type or the shape decides. -/
structure IsPlain (k : Keywords Schema) : Prop where
  reference : k.reference = none
  unwrapNullable : k.unwrapNullable = none
  anyOf : k.anyOf = none

/-- The types of values that hold nothing. -/
def IsScalar (k : Keywords Schema) : Prop :=
  k.primaryType = some "boolean" ∨ k.primaryType = some "integer" ∨ k.primaryType = some "number"

/-- Neither an array nor a scalar: an object or text. -/
structure IsOpen (k : Keywords Schema) : Prop extends IsPlain k where
  notArray : k.primaryType ≠ some "array"
  notScalar : ¬ IsScalar k

mutual

/-- What planning a schema comes to, if so many names are known. -/
inductive Plans (doc : Document) : List String → Schema → Planned Plan → Prop
  | boolean {known : List String} {value : Bool} : Plans doc known (.boolean value) (.done .primitive)
  | unresolved {known : List String} {k : Keywords Schema} {reference : String} {e : GenerationError}
      (hreference : k.reference = some reference) (hresolve : doc.resolve reference = .error e) :
      Plans doc known (.object k) (.fail e)
  | known {known : List String} {k : Keywords Schema} {reference name : String} {target : Schema}
      (hreference : k.reference = some reference)
      (hresolve : doc.resolve reference = .ok (name, target)) (hknown : name ∈ known) :
      Plans doc known (.object k) (.done (.delegate name k.isNullable))
  | new {known : List String} {k : Keywords Schema} {reference name : String} {target : Schema}
      {own : Planned Plan} (hreference : k.reference = some reference)
      (hresolve : doc.resolve reference = .ok (name, target)) (hnew : name ∉ known)
      (h : Plans doc (name :: known) target own) :
      Plans doc known (.object k) ⟨(name, own.result.toOption) :: own.found,
        own.result.map fun _ => .delegate name k.isNullable⟩
  | union {known : List String} {k : Keywords Schema} {other : Schema} {own : Planned Plan}
      (hreference : k.reference = none) (hother : k.unwrapNullable = some other)
      (h : Plans doc known other own) : Plans doc known (.object k) (own.map Plan.orNull)
  | anyUnion {known : List String} {k : Keywords Schema} (hreference : k.reference = none)
      (hother : k.unwrapNullable = none) (hunion : k.anyOf.isSome) :
      Plans doc known (.object k) (.done .primitive)
  | array {known : List String} {k : Keywords Schema} {items : Schema} {own : Planned Plan}
      (hplain : IsPlain k) (htype : k.primaryType = some "array") (hitems : k.items = some items)
      (h : Plans doc known items own) :
      Plans doc known (.object k) (own.map (.array · k.isNullable))
  | bareArray {known : List String} {k : Keywords Schema} (hplain : IsPlain k)
      (htype : k.primaryType = some "array") (hitems : k.items = none) :
      Plans doc known (.object k) (.done (.array .primitive k.isNullable))
  | scalar {known : List String} {k : Keywords Schema} (hplain : IsPlain k) (hscalar : IsScalar k) :
      Plans doc known (.object k) (.done .primitive)
  | conflict {known : List String} {k : Keywords Schema} (hopen : IsOpen k)
      (hobject : k.isObject = true) (hproperties : k.properties.isSome) (hvalues : k.mapValues.isSome) :
      Plans doc known (.object k) (.fail .conflictingObjectShape)
  | map {known : List String} {k : Keywords Schema} {values : Schema} {own : Planned Plan}
      (hopen : IsOpen k) (hobject : k.isObject = true) (hproperties : k.properties = none)
      (hvalues : k.mapValues = some values) (h : Plans doc known values own) :
      Plans doc known (.object k) (own.map (.map · k.isNullable))
  | object {known : List String} {k : Keywords Schema} {properties : List (String × Schema)}
      {own : Planned (List (String × Plan))} (hopen : IsOpen k) (hobject : k.isObject = true)
      (hproperties : k.properties = some properties) (hvalues : k.mapValues = none)
      (h : PlansAll doc known properties own) :
      Plans doc known (.object k) (own.map (.object · k.isNullable))
  | empty {known : List String} {k : Keywords Schema} (hopen : IsOpen k) (hobject : k.isObject = true)
      (hproperties : k.properties = none) (hvalues : k.mapValues = none) :
      Plans doc known (.object k) (.fail .emptyObjectSchema)
  | date {known : List String} {k : Keywords Schema} (hopen : IsOpen k) (hobject : k.isObject = false)
      (hformat : k.format = some "date-time") :
      Plans doc known (.object k) (.done (.date k.isNullable))
  | text {known : List String} {k : Keywords Schema} (hopen : IsOpen k) (hobject : k.isObject = false)
      (hformat : k.format ≠ some "date-time") : Plans doc known (.object k) (.done .primitive)

/-- What planning properties comes to. Each is planned with the names that were found before it, and
the first that fails ends it. -/
inductive PlansAll (doc : Document) :
    List String → List (String × Schema) → Planned (List (String × Plan)) → Prop
  | nil {known : List String} : PlansAll doc known [] (.done [])
  | failed {known : List String} {name : String} {schema : Schema} {rest : List (String × Schema)}
      {own : Planned Plan} {e : GenerationError} (h : Plans doc known schema own)
      (hresult : own.result = .error e) :
      PlansAll doc known ((name, schema) :: rest) ⟨own.found, .error e⟩
  | cons {known : List String} {name : String} {schema : Schema} {rest : List (String × Schema)}
      {own : Planned Plan} {plan : Plan} {others : Planned (List (String × Plan))}
      (h : Plans doc known schema own) (hresult : own.result = .ok plan)
      (hrest : PlansAll doc (known ++ own.names) rest others) :
      PlansAll doc known ((name, schema) :: rest)
        ⟨own.found ++ others.found, others.result.map ((name, plan) :: ·)⟩

end

mutual

theorem planSchema_plans (doc : Document) (known : List String) (schema : Schema) :
    Plans doc known schema (planSchema doc known schema) := by
  cases schema with
  | boolean value =>
      rw [planSchema]
      exact .boolean
  | object k =>
      rw [planSchema]
      split
      · rename_i reference hreference
        split
        · rename_i e hresolve
          exact .unresolved hreference hresolve
        · rename_i name target hresolve
          split
          · rename_i hknown
            exact .known hreference hresolve (by simpa using hknown)
          · rename_i hnew
            exact .new hreference hresolve (by simpa using hnew)
              (planSchema_plans doc (name :: known) target)
      · rename_i hreference
        split
        · rename_i other hother
          exact .union hreference hother (planSchema_plans doc known other)
        · rename_i hother
          split
          · rename_i hunion
            exact .anyUnion hreference hother hunion
          · rename_i hunion
            have hplain : IsPlain k := ⟨hreference, hother, by simpa using hunion⟩
            split
            · rename_i htype
              split
              · rename_i items hitems
                exact .array hplain htype hitems (planSchema_plans doc known items)
              · rename_i hitems
                exact .bareArray hplain htype hitems
            · rename_i htype
              exact .scalar hplain (.inl htype)
            · rename_i htype
              exact .scalar hplain (.inr (.inl htype))
            · rename_i htype
              exact .scalar hplain (.inr (.inr htype))
            · rename_i hnotArray hnotBoolean hnotInteger hnotNumber
              have hopen : IsOpen k := by
                refine ⟨hplain, hnotArray, ?_⟩
                rintro (h | h | h)
                · exact hnotBoolean h
                · exact hnotInteger h
                · exact hnotNumber h
              split
              · rename_i hobject
                split
                · rename_i hproperties hvalues
                  exact .conflict hopen hobject (by simp [hproperties]) (by simp [hvalues])
                · rename_i values hproperties hvalues
                  exact .map hopen hobject hproperties hvalues (planSchema_plans doc known values)
                · rename_i properties hproperties hvalues
                  exact .object hopen hobject hproperties hvalues
                    (planProperties_plansAll doc known properties)
                · rename_i hproperties hvalues
                  exact .empty hopen hobject hproperties hvalues
              · rename_i hobject
                split
                · rename_i hformat
                  exact .date hopen (by simpa using hobject) hformat
                · rename_i hformat
                  exact .text hopen (by simpa using hobject) hformat
termination_by (doc.schemas.countOutside known, sizeOf schema)
decreasing_by
  · apply Prod.Lex.left
    exact OrderedMap.countOutside_cons_lt
      (OrderedMap.mem_keys_of_get? (Document.schema?_of_resolve (by assumption))) (by simp_all)
  · exact Prod.Lex.right _ (sizeOf_unwrapNullable_lt (by assumption))
  · exact Prod.Lex.right _ (sizeOf_items_lt (by assumption))
  · exact Prod.Lex.right _ (sizeOf_mapValues_lt (by assumption))
  · exact Prod.Lex.right _ (sizeOf_properties_lt (by assumption))

theorem planProperties_plansAll (doc : Document) (known : List String)
    (properties : List (String × Schema)) :
    PlansAll doc known properties (planProperties doc known properties) := by
  cases properties with
  | nil =>
      rw [planProperties]
      exact .nil
  | cons property rest =>
      obtain ⟨name, schema⟩ := property
      have hown := planSchema_plans doc known schema
      rw [planProperties]
      dsimp only
      split
      · rename_i e hresult
        exact .failed hown hresult
      · rename_i plan hresult
        exact .cons hown hresult
          (planProperties_plansAll doc (known ++ (planSchema doc known schema).names) rest)
termination_by (doc.schemas.countOutside known, sizeOf properties)
decreasing_by
  · apply Prod.Lex.right
    simp only [List.cons.sizeOf_spec, Prod.mk.sizeOf_spec]
    omega
  -- The property before may have found no new type: then only the list has become shorter.
  · have hle := OrderedMap.countOutside_append_le doc.schemas known
      (planSchema doc known schema).names
    rcases Nat.lt_or_eq_of_le hle with hlt | heq
    · exact Prod.Lex.left _ _ hlt
    · rw [heq]
      apply Prod.Lex.right
      simp only [List.cons.sizeOf_spec, Prod.mk.sizeOf_spec]
      omega

end

end DateReviver
