import DateReviver.Proofs.Planning.Translation

/-!
# Reading a translation back

The keywords of a schema decide which plan can be its translation: a reference has a delegation, an
array an array, an object an object or a map. So a schema has one translation at most. Unions with null
around a schema leave its plan as it is, except that they make it nullable.
-/

namespace DateReviver

open DateReviver.OpenApi

variable {doc : Document} {k : Keywords Schema} {inner : Schema} {plan : Plan}

theorem Translates.of_reference {reference : String} (hreference : k.reference = some reference)
    (h : Translates doc (.object k) plan) : ∃ name target,
      doc.resolve reference = .ok (name, target) ∧ plan = .delegate name k.isNullable := by
  cases h with
  | wrapped hnone => simp [hreference] at hnone
  | shape h =>
      cases h with
      | reference hsome hresolve =>
          rw [hreference] at hsome
          cases hsome
          exact ⟨_, _, hresolve, rfl⟩
      | union hnone => simp [hreference] at hnone
      | array hplain | bareArray hplain | scalar hplain =>
          exact absurd hplain.reference (by simp [hreference])
      | map hopen | object hopen | date hopen | text hopen =>
          exact absurd hopen.reference (by simp [hreference])

theorem Translates.of_unwrapNullable (hreference : k.reference = none)
    (hinner : k.unwrapNullable = some inner) (h : Translates doc (.object k) plan) :
    ∃ bare, Translates doc inner bare ∧ plan = bare.orNull := by
  cases h with
  | wrapped _ hsome hbare =>
      rw [hinner] at hsome
      cases hsome
      exact ⟨_, hbare, rfl⟩
  | shape h =>
      cases h with
      | reference hsome => simp [hreference] at hsome
      | union _ hnone => simp [hinner] at hnone
      | array hplain | bareArray hplain | scalar hplain =>
          exact absurd hplain.unwrapNullable (by simp [hinner])
      | map hopen | object hopen | date hopen | text hopen =>
          exact absurd hopen.unwrapNullable (by simp [hinner])

theorem Translates.of_plain (hplain : IsPlain k) (h : Translates doc (.object k) plan) :
    Shapes doc (.object k) plan := by
  cases h with
  | shape h => exact h
  | wrapped _ hsome => exact absurd hplain.unwrapNullable (by simp [hsome])

theorem Translates.of_array (hplain : IsPlain k) (htype : k.primaryType = some "array")
    (hitems : k.items = some inner) (h : Translates doc (.object k) plan) :
    ∃ item, Translates doc inner item ∧ plan = .array item k.isNullable := by
  cases h.of_plain hplain with
  | reference hsome => exact absurd hplain.reference (by simp [hsome])
  | union _ _ hunion => simp [hplain.anyOf] at hunion
  | array _ _ hsome hitem =>
      rw [hitems] at hsome
      cases hsome
      exact ⟨_, hitem, rfl⟩
  | bareArray _ _ hnone => simp [hitems] at hnone
  | scalar _ hscalar => simp [IsScalar, htype] at hscalar
  | map hopen | object hopen | date hopen | text hopen => exact absurd htype hopen.notArray

theorem Translates.of_bareArray (hplain : IsPlain k) (htype : k.primaryType = some "array")
    (hitems : k.items = none) (h : Translates doc (.object k) plan) :
    plan = .array .primitive k.isNullable := by
  cases h.of_plain hplain with
  | reference hsome => exact absurd hplain.reference (by simp [hsome])
  | union _ _ hunion => simp [hplain.anyOf] at hunion
  | array _ _ hsome => simp [hitems] at hsome
  | bareArray => rfl
  | scalar _ hscalar => simp [IsScalar, htype] at hscalar
  | map hopen | object hopen | date hopen | text hopen => exact absurd htype hopen.notArray

theorem Translates.of_scalar (hplain : IsPlain k) (hscalar : IsScalar k)
    (h : Translates doc (.object k) plan) : plan = .primitive := by
  cases h.of_plain hplain with
  | reference hsome => exact absurd hplain.reference (by simp [hsome])
  | array _ htype | bareArray _ htype => simp [IsScalar, htype] at hscalar
  | union | scalar | text => rfl
  | map hopen | object hopen | date hopen => exact absurd hscalar hopen.notScalar

theorem Translates.of_anyUnion (hreference : k.reference = none)
    (hinner : k.unwrapNullable = none) (hunion : k.anyOf.isSome)
    (h : Translates doc (.object k) plan) : plan = .primitive := by
  cases h with
  | wrapped _ hsome => simp [hinner] at hsome
  | shape h =>
      cases h with
      | reference hsome => simp [hreference] at hsome
      | union => rfl
      | array hplain | bareArray hplain | scalar hplain => simp [hplain.anyOf] at hunion
      | map hopen | object hopen | date hopen | text hopen => simp [hopen.anyOf] at hunion

section Open

variable (hopen : IsOpen k)

include hopen

theorem Translates.of_map (hobject : k.isObject = true) (hvalues : k.mapValues = some inner)
    (h : Translates doc (.object k) plan) :
    ∃ values, Translates doc inner values ∧ plan = .map values k.isNullable := by
  cases h.of_plain hopen.toIsPlain with
  | reference hsome => exact absurd hopen.reference (by simp [hsome])
  | union _ _ hunion => simp [hopen.anyOf] at hunion
  | array _ htype | bareArray _ htype => exact absurd htype hopen.notArray
  | scalar _ hscalar => exact absurd hscalar hopen.notScalar
  | map _ _ _ hsome hplan =>
      rw [hvalues] at hsome
      cases hsome
      exact ⟨_, hplan, rfl⟩
  | object _ _ _ hnone => simp [hvalues] at hnone
  | date _ hnot | text _ hnot => simp [hobject] at hnot

theorem Translates.of_object {properties : List (String × Schema)} (hobject : k.isObject = true)
    (hproperties : k.properties = some properties) (h : Translates doc (.object k) plan) :
    ∃ plans, TranslatesAll doc properties plans ∧ plan = .object plans k.isNullable := by
  cases h.of_plain hopen.toIsPlain with
  | reference hsome => exact absurd hopen.reference (by simp [hsome])
  | union _ _ hunion => simp [hopen.anyOf] at hunion
  | array _ htype | bareArray _ htype => exact absurd htype hopen.notArray
  | scalar _ hscalar => exact absurd hscalar hopen.notScalar
  | map _ _ hnone => simp [hproperties] at hnone
  | object _ _ hsome _ hplans =>
      rw [hproperties] at hsome
      cases hsome
      exact ⟨_, hplans, rfl⟩
  | date _ hnot | text _ hnot => simp [hobject] at hnot

theorem Translates.of_date (hobject : k.isObject = false) (hformat : k.format = some "date-time")
    (h : Translates doc (.object k) plan) : plan = .date k.isNullable := by
  cases h.of_plain hopen.toIsPlain with
  | reference hsome => exact absurd hopen.reference (by simp [hsome])
  | union _ _ hunion => simp [hopen.anyOf] at hunion
  | array _ htype | bareArray _ htype => exact absurd htype hopen.notArray
  | scalar _ hscalar => exact absurd hscalar hopen.notScalar
  | map _ hyes | object _ hyes => simp [hobject] at hyes
  | date => rfl
  | text _ _ hnot => exact absurd hformat hnot

theorem Translates.of_text (hobject : k.isObject = false) (hformat : k.format ≠ some "date-time")
    (h : Translates doc (.object k) plan) : plan = .primitive := by
  cases h.of_plain hopen.toIsPlain with
  | reference hsome => exact absurd hopen.reference (by simp [hsome])
  | union | scalar | text => rfl
  | array _ htype | bareArray _ htype => exact absurd htype hopen.notArray
  | map _ hyes | object _ hyes => simp [hobject] at hyes
  | date _ _ hdate => exact absurd hdate hformat

/-- An object that says nothing about its entries has no translation. -/
theorem Translates.not_empty (hobject : k.isObject = true) (hproperties : k.properties = none)
    (hvalues : k.mapValues = none) : ¬ Translates doc (.object k) plan := by
  intro h
  cases h.of_plain hopen.toIsPlain with
  | reference hsome => simp [hopen.reference] at hsome
  | union _ _ hunion => simp [hopen.anyOf] at hunion
  | array _ htype | bareArray _ htype => exact hopen.notArray htype
  | scalar _ hscalar => exact hopen.notScalar hscalar
  | map _ _ _ hsome => simp [hvalues] at hsome
  | object _ _ hsome => simp [hproperties] at hsome
  | date _ hnot | text _ hnot => simp [hobject] at hnot

end Open

theorem TranslatesAll.of_mem {schemas : List (String × Schema)} {plans : List (String × Plan)}
    {name : String} {schema : Schema} (h : TranslatesAll doc schemas plans)
    (hmem : (name, schema) ∈ schemas) : ∃ plan, (name, plan) ∈ plans ∧
      Translates doc schema plan := by
  induction schemas generalizing plans with
  | nil => cases hmem
  | cons entry rest ih =>
      cases h with
      | cons hplan hrest =>
          rcases List.mem_cons.1 hmem with heq | htail
          · cases heq
            exact ⟨_, List.mem_cons_self, hplan⟩
          · obtain ⟨plan, hplan, htranslates⟩ := ih hrest htail
            exact ⟨plan, List.mem_cons_of_mem _ hplan, htranslates⟩

theorem TranslatesAll.of_mem_plans {schemas : List (String × Schema)}
    {plans : List (String × Plan)} {name : String} {plan : Plan}
    (h : TranslatesAll doc schemas plans) (hmem : (name, plan) ∈ plans) :
    ∃ schema, (name, schema) ∈ schemas ∧ Translates doc schema plan := by
  induction plans generalizing schemas with
  | nil => cases hmem
  | cons entry rest ih =>
      cases h with
      | cons hplan hrest =>
          rcases List.mem_cons.1 hmem with heq | htail
          · cases heq
            exact ⟨_, List.mem_cons_self, hplan⟩
          · obtain ⟨schema, hschema, htranslates⟩ := ih hrest htail
            exact ⟨schema, List.mem_cons_of_mem _ hschema, htranslates⟩

/-! ## There is one translation -/

mutual

theorem Translates.unique : {schema : Schema} → {plan other : Plan} → Translates doc schema plan →
    Translates doc schema other → plan = other
  | _, _, _, .shape h, hother => h.unique hother
  | _, _, _, .wrapped hreference hinner h, hother => by
      obtain ⟨bare, hbare, rfl⟩ := hother.of_unwrapNullable hreference hinner
      rw [h.unique hbare]

theorem Shapes.unique : {schema : Schema} → {plan other : Plan} → Shapes doc schema plan →
    Translates doc schema other → plan = other
  | _, _, _, .boolean, hother => by
      cases hother with
      | shape h =>
          cases h
          rfl
  | _, _, _, .reference hreference hresolve, hother => by
      obtain ⟨name, target, hsame, rfl⟩ := hother.of_reference hreference
      rw [hresolve] at hsame
      cases hsame
      rfl
  | _, _, _, .union hreference hinner hunion, hother =>
      (hother.of_anyUnion hreference hinner hunion).symm
  | _, _, _, .array hplain htype hitems h, hother => by
      obtain ⟨item, hitem, rfl⟩ := hother.of_array hplain htype hitems
      rw [h.unique hitem]
  | _, _, _, .bareArray hplain htype hitems, hother => (hother.of_bareArray hplain htype hitems).symm
  | _, _, _, .scalar hplain hscalar, hother => (hother.of_scalar hplain hscalar).symm
  | _, _, _, .map hopen hobject _ hvalues h, hother => by
      obtain ⟨values, hplan, rfl⟩ := hother.of_map hopen hobject hvalues
      rw [h.unique hplan]
  | _, _, _, .object hopen hobject hproperties _ h, hother => by
      obtain ⟨plans, hplans, rfl⟩ := hother.of_object hopen hobject hproperties
      rw [h.unique hplans]
  | _, _, _, .date hopen hobject hformat, hother => (hother.of_date hopen hobject hformat).symm
  | _, _, _, .text hopen hobject hformat, hother => (hother.of_text hopen hobject hformat).symm

theorem TranslatesAll.unique : {schemas : List (String × Schema)} →
    {plans others : List (String × Plan)} → TranslatesAll doc schemas plans →
      TranslatesAll doc schemas others → plans = others
  | _, _, _, .nil, .nil => rfl
  | _, _, _, .cons h hrest, .cons hother hothers => by rw [h.unique hother, hrest.unique hothers]

end

/-! ## Unions with null -/

/-- The plan for a value that may also be null under a condition. -/
def Plan.orNullIf (condition : Bool) : Plan → Plan
  | .primitive => .primitive
  | .date nullable => .date (nullable || condition)
  | .delegate typeName nullable => .delegate typeName (nullable || condition)
  | .array item nullable => .array item (nullable || condition)
  | .map values nullable => .map values (nullable || condition)
  | .object properties nullable => .object properties (nullable || condition)

theorem Plan.orNullIf_false (plan : Plan) : plan.orNullIf false = plan := by
  cases plan <;> simp [orNullIf]

theorem Plan.orNullIf_true (plan : Plan) : plan.orNullIf true = plan.orNull := by
  cases plan <;> simp [orNullIf, orNull]

theorem Plan.orNull_orNullIf (plan : Plan) (condition : Bool) :
    (plan.orNullIf condition).orNull = plan.orNullIf true := by
  cases plan <;> simp [orNullIf, orNull]

theorem Plan.orNullIf_orNull (plan : Plan) (condition : Bool) :
    plan.orNull.orNullIf condition = plan.orNullIf true := by
  cases plan <;> simp [orNullIf, orNull]

/-- A translation is the plan of a schema under unions with null; these make it nullable. -/
theorem Translates.unwrap : {schema : Schema} → {plan : Plan} → Translates doc schema plan →
    ∃ bare wrapped own, Unwraps schema wrapped bare ∧ Shapes doc bare own ∧
      plan = own.orNullIf wrapped
  | schema, plan, .shape h => ⟨schema, false, plan, .refl, h, plan.orNullIf_false.symm⟩
  | _, _, .wrapped hreference hinner h => by
      obtain ⟨bare, wrapped, own, hunwraps, hshapes, rfl⟩ := Translates.unwrap h
      exact ⟨bare, true, own, .step hreference hinner hunwraps, hshapes,
        own.orNull_orNullIf wrapped⟩

end DateReviver
