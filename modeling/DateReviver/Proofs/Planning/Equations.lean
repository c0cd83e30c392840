import DateReviver.Proofs.Planning.Translation

/-!
# How a walk proceeds

The walk over a schema object as one equation, without the bookkeeping of its termination, so that
the schemas of a concrete document can be planned by rewriting. The rules of planning leave no choice:
whatever planning comes to by them is what the equation says.
-/

namespace DateReviver

open DateReviver.OpenApi

variable {doc : Document} {known : List String} {k : Keywords Schema}

theorem planSchema_object :
    planSchema doc known (.object k) =
      match k.reference with
      | some reference =>
          match doc.resolve reference with
          | .error e => .fail e
          | .ok (name, target) =>
              if known.contains name then .done (.delegate name k.isNullable)
              else
                let own := planSchema doc (name :: known) target
                ⟨(name, own.result.toOption) :: own.found,
                  own.result.map fun _ => .delegate name k.isNullable⟩
      | none =>
          match k.unwrapNullable with
          | some inner => (planSchema doc known inner).map Plan.orNull
          | none =>
              if k.anyOf.isSome then .done .primitive
              else
                match k.primaryType with
                | some "array" =>
                    match k.items with
                    | some items => (planSchema doc known items).map (.array · k.isNullable)
                    | none => .done (.array .primitive k.isNullable)
                | some "boolean" | some "integer" | some "number" => .done .primitive
                | _ =>
                    if k.isObject then
                      match k.properties, k.mapValues with
                      | some _, some _ => .fail .conflictingObjectShape
                      | none, some values =>
                          (planSchema doc known values).map (.map · k.isNullable)
                      | some properties, none =>
                          (planProperties doc known properties).map (.object · k.isNullable)
                      | none, none => .fail .emptyObjectSchema
                    else if k.format = some "date-time" then .done (.date k.isNullable)
                    else .done .primitive := by
  rw [planSchema]
  split
  · split <;> simp_all
  · split
    · simp_all
    · split
      · simp_all
      · split
        · split <;> simp_all
        · simp_all
        · simp_all
        · simp_all
        · split
          · split <;> simp_all
          · simp_all

theorem planSchema_of_open (hopen : IsOpen k) : planSchema doc known (.object k) =
    if k.isObject then
      match k.properties, k.mapValues with
      | some _, some _ => .fail .conflictingObjectShape
      | none, some values => (planSchema doc known values).map (.map · k.isNullable)
      | some properties, none => (planProperties doc known properties).map (.object · k.isNullable)
      | none, none => .fail .emptyObjectSchema
    else if k.format = some "date-time" then .done (.date k.isNullable)
    else .done .primitive := by
  have hnotScalar := hopen.notScalar
  simp only [IsScalar, not_or] at hnotScalar
  rw [planSchema_object]
  simp only [hopen.reference, hopen.unwrapNullable, hopen.anyOf]
  split
  · rename_i hfalse
    simp at hfalse
  · split
    · rename_i htype
      exact absurd htype hopen.notArray
    · rename_i htype
      exact absurd htype hnotScalar.1
    · rename_i htype
      exact absurd htype hnotScalar.2.1
    · rename_i htype
      exact absurd htype hnotScalar.2.2
    · rfl

/-! ## The rules leave no choice -/

mutual

theorem Plans.eq_planSchema : {known : List String} → {schema : Schema} → {planned : Planned Plan} →
    Plans doc known schema planned → planned = planSchema doc known schema
  | _, _, _, .boolean => by rw [planSchema]
  | _, _, _, .unresolved hreference hresolve => by simp [planSchema_object, hreference, hresolve]
  | _, _, _, .known hreference hresolve hknown => by
      simp [planSchema_object, hreference, hresolve, hknown]
  | _, _, _, .new hreference hresolve hnew h => by
      simp [planSchema_object, hreference, hresolve, hnew, ← h.eq_planSchema]
  | _, _, _, .union hreference hother h => by
      simp [planSchema_object, hreference, hother, ← h.eq_planSchema]
  | _, _, _, .anyUnion hreference hother hunion => by
      simp [planSchema_object, hreference, hother, hunion]
  | _, _, _, .array hplain htype hitems h => by
      simp [planSchema_object, hplain.reference, hplain.unwrapNullable, hplain.anyOf, htype, hitems,
        ← h.eq_planSchema]
  | _, _, _, .bareArray hplain htype hitems => by
      simp [planSchema_object, hplain.reference, hplain.unwrapNullable, hplain.anyOf, htype, hitems]
  | _, _, _, .scalar hplain hscalar => by
      rcases hscalar with htype | htype | htype <;>
        simp [planSchema_object, hplain.reference, hplain.unwrapNullable, hplain.anyOf, htype]
  | _, _, _, .conflict hopen hobject hproperties hvalues => by
      obtain ⟨_, hproperties⟩ := Option.isSome_iff_exists.1 hproperties
      obtain ⟨_, hvalues⟩ := Option.isSome_iff_exists.1 hvalues
      simp [planSchema_of_open hopen, hobject, hproperties, hvalues]
  | _, _, _, .map hopen hobject hproperties hvalues h => by
      simp [planSchema_of_open hopen, hobject, hproperties, hvalues, ← h.eq_planSchema]
  | _, _, _, .object hopen hobject hproperties hvalues h => by
      simp [planSchema_of_open hopen, hobject, hproperties, hvalues, ← h.eq_planProperties]
  | _, _, _, .empty hopen hobject hproperties hvalues => by
      simp [planSchema_of_open hopen, hobject, hproperties, hvalues]
  | _, _, _, .date hopen hobject hformat => by simp [planSchema_of_open hopen, hobject, hformat]
  | _, _, _, .text hopen hobject hformat => by simp [planSchema_of_open hopen, hobject, hformat]

theorem PlansAll.eq_planProperties : {known : List String} → {properties : List (String × Schema)} →
    {planned : Planned (List (String × Plan))} → PlansAll doc known properties planned →
      planned = planProperties doc known properties
  | _, _, _, .nil => by rw [planProperties]
  | _, _, _, .failed h hresult => by simp [planProperties, ← h.eq_planSchema, hresult]
  | _, _, _, .cons h hresult hrest => by
      simp [planProperties, ← h.eq_planSchema, hresult, ← hrest.eq_planProperties]

end

end DateReviver
