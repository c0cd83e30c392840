import DateReviver.Proofs.Planning.Positions

/-!
# The parts of a schema and of its plan

Planning looks at some of the schemas inside of a schema, in the order in which they stand: at the
other member of a nullable union, at the items of an array, at the values of a map, at the properties
of an object. What a reference leads to is no part of it. A schema and its plan have the same parts,
along the same steps into a value, and so the plan names the types that the schema refers to.
-/

namespace DateReviver

open DateReviver.OpenApi

/-- The schemas inside of a schema that planning looks at, in their order, each with the steps into
a value that lead to it. There is no rule for references, and none for objects that cannot be
planned. -/
inductive OpenApi.Schema.Inside : Schema → List (List Access × Schema) → Prop
  | boolean {value : Bool} : Inside (.boolean value) []
  | union {k : Keywords Schema} {other : Schema} (hreference : k.reference = none)
      (hother : k.unwrapNullable = some other) : Inside (.object k) [([], other)]
  | anyUnion {k : Keywords Schema} (hreference : k.reference = none)
      (hother : k.unwrapNullable = none) (hunion : k.anyOf.isSome) : Inside (.object k) []
  | array {k : Keywords Schema} {items : Schema} (hplain : IsPlain k)
      (htype : k.primaryType = some "array") (hitems : k.items = some items) :
      Inside (.object k) [([.item], items)]
  | bareArray {k : Keywords Schema} (hplain : IsPlain k) (htype : k.primaryType = some "array")
      (hitems : k.items = none) : Inside (.object k) []
  | scalar {k : Keywords Schema} (hplain : IsPlain k) (hscalar : IsScalar k) :
      Inside (.object k) []
  | map {k : Keywords Schema} {values : Schema} (hopen : IsOpen k) (hobject : k.isObject = true)
      (hproperties : k.properties = none) (hvalues : k.mapValues = some values) :
      Inside (.object k) [([.entry], values)]
  | object {k : Keywords Schema} {properties : List (String × Schema)} (hopen : IsOpen k)
      (hobject : k.isObject = true) (hproperties : k.properties = some properties)
      (hvalues : k.mapValues = none) :
      Inside (.object k) (properties.map fun property => ([.property property.1], property.2))
  | text {k : Keywords Schema} (hopen : IsOpen k) (hobject : k.isObject = false) :
      Inside (.object k) []

/-- A schema stands in another, at the end of some steps into a value. -/
inductive OpenApi.Schema.Part : Schema → List Access → Schema → Prop
  | here {schema : Schema} : Part schema [] schema
  | inside {schema part inner : Schema} {parts : List (List Access × Schema)}
      {steps path : List Access} (hinside : schema.Inside parts) (hmem : (steps, part) ∈ parts)
      (h : Part part path inner) : Part schema (steps ++ path) inner

/-- A plan stands in another, at the end of some steps into a value. Delegations are not
followed. -/
inductive Plan.Part : Plan → List Access → Plan → Prop
  | here {plan : Plan} : Part plan [] plan
  | item {item inner : Plan} {nullable : Bool} {path : List Access} (h : Part item path inner) :
      Part (.array item nullable) (.item :: path) inner
  | entry {values inner : Plan} {nullable : Bool} {path : List Access} (h : Part values path inner) :
      Part (.map values nullable) (.entry :: path) inner
  | property {properties : List (String × Plan)} {name : String} {plan inner : Plan}
      {nullable : Bool} {path : List Access} (hmem : (name, plan) ∈ properties)
      (h : Part plan path inner) :
      Part (.object properties nullable) (.property name :: path) inner

/-! ## Parts of a plan -/

section Plan

variable {r : Registry} {plan inner : Plan} {path : List Access} {step : Access}

theorem Plan.Part.eq_of_nil (h : plan.Part [] inner) : inner = plan := by
  cases h
  rfl

theorem Plan.part_cons {plan inner : Plan} {step : Access} {path : List Access} :
    plan.Part (step :: path) inner ↔ ∃ middle, plan.Part [step] middle ∧ middle.Part path inner := by
  constructor
  · intro h
    cases h with
    | item h => exact ⟨_, .item .here, h⟩
    | entry h => exact ⟨_, .entry .here, h⟩
    | property hmem h => exact ⟨_, .property hmem .here, h⟩
  · rintro ⟨middle, hfirst, hrest⟩
    cases hfirst with
    | item h =>
        cases h
        exact .item hrest
    | entry h =>
        cases h
        exact .entry hrest
    | property hmem h =>
        cases h
        exact .property hmem hrest

theorem Plan.Part.reaches (h : plan.Part path inner) : r.Reaches plan inner := by
  induction h with
  | here => exact .refl
  | item _ ih => exact .head .item ih
  | entry _ ih => exact .head .value ih
  | property hmem _ ih => exact .head (.property hmem) ih

theorem Plan.Within.of_part {dates : Prop} {types : String → Prop} (h : plan.Within dates types)
    (hpart : plan.Part path inner) : inner.Within dates types := by
  induction hpart with
  | here => exact h
  | item _ ih =>
      cases h with
      | array h => exact ih h
  | entry _ ih =>
      cases h with
      | map h => exact ih h
  | property hmem _ ih =>
      cases h with
      | object h => exact ih (h _ hmem)

/-- A plan holds the dates of its parts. -/
theorem Plan.Part.holdsDate (h : plan.Part path inner) (hdate : r.HoldsDate inner) :
    r.HoldsDate plan := by
  obtain ⟨nullable, hreach⟩ := hdate
  exact ⟨nullable, h.reaches.trans hreach⟩

theorem Plan.part_orNull_cons : plan.orNull.Part (step :: path) inner ↔
    plan.Part (step :: path) inner := by
  cases plan with
  | primitive => rfl
  | date =>
      constructor <;> intro h <;> cases h
  | delegate =>
      constructor <;> intro h <;> cases h
  | array =>
      constructor <;> rintro (_ | h) <;> exact .item h
  | map =>
      constructor <;> rintro (_ | _ | h) <;> exact .entry h
  | object =>
      constructor
      · intro h
        cases h with
        | property hmem h => exact .property hmem h
      · intro h
        cases h with
        | property hmem h => exact .property hmem h

/-- Under a union with null, the parts of a plan are what they were, but that the plan itself
admits null. -/
theorem Plan.Part.orNull {condition : Bool} (h : plan.Part path (inner.orNullIf condition)) :
    ∃ condition, plan.orNull.Part path (inner.orNullIf condition) := by
  cases path with
  | nil =>
      rw [← h.eq_of_nil, Plan.orNull_orNullIf]
      exact ⟨true, .here⟩
  | cons step path => exact ⟨condition, Plan.part_orNull_cons.2 h⟩

end Plan

/-! ## Parts of a schema -/

section Schema

variable {schema source inner bare : Schema}

/-- What an only schema inside of another leads to. -/
theorem OpenApi.Schema.Inside.part {steps path : List Access}
    (h : schema.Inside [(steps, source)]) (hpart : source.Part path inner) :
    schema.Part (steps ++ path) inner :=
  .inside h (List.mem_singleton_self _) hpart

theorem OpenApi.Schema.Part.trans {path more : List Access} (h : schema.Part path source)
    (hmore : source.Part more inner) : schema.Part (path ++ more) inner := by
  induction h with
  | here => exact hmore
  | inside hinside hmem _ ih =>
      rw [List.append_assoc]
      exact .inside hinside hmem (ih hmore)

/-- Unions with null stand around what they lead to. -/
theorem Unwraps.of_part {wrapped : Bool} {path : List Access} (h : Unwraps schema wrapped bare)
    (hpart : bare.Part path inner) : schema.Part path inner := by
  induction h with
  | refl => exact hpart
  | step hreference hother _ ih => exact (Schema.Inside.union hreference hother).part (ih hpart)

end Schema

/-! ## The parts of a schema are the parts of its plan -/

section Translation

variable {doc : Document} {schema source : Schema} {plan inner : Plan} {path : List Access}

/-- A part of a plan, unless nothing happens there, is the translation of a part of the schema. The
induction is on the way to the part; unions with null, which leave no step on it, are looked through
first. -/
theorem Translates.exists_part (h : Translates doc schema plan) (hpart : plan.Part path inner)
    (hne : inner ≠ .primitive) :
    ∃ source, schema.Part path source ∧ Translates doc source inner := by
  induction hpart generalizing schema with
  | here => exact ⟨schema, .here, h⟩
  | item hpart ih =>
      obtain ⟨bare, wrapped, own, hunwraps, hshapes, heq⟩ := h.unwrap
      cases hshapes with
      | array hplain htype hitems hitem =>
          injection heq with hitemEq
          subst hitemEq
          obtain ⟨source, hsource, htranslates⟩ := ih hitem hne
          have hinside := Schema.Inside.array hplain htype hitems
          exact ⟨source, hunwraps.of_part (hinside.part hsource), htranslates⟩
      | bareArray =>
          injection heq with hitemEq
          subst hitemEq
          cases hpart
          exact absurd rfl hne
      | _ => cases heq
  | entry _ ih =>
      obtain ⟨bare, wrapped, own, hunwraps, hshapes, heq⟩ := h.unwrap
      cases hshapes with
      | map hopen hobject hproperties hvalues hplan =>
          injection heq with hplanEq
          subst hplanEq
          obtain ⟨source, hsource, htranslates⟩ := ih hplan hne
          have hinside := Schema.Inside.map hopen hobject hproperties hvalues
          exact ⟨source, hunwraps.of_part (hinside.part hsource), htranslates⟩
      | _ => cases heq
  | property hmem _ ih =>
      obtain ⟨bare, wrapped, own, hunwraps, hshapes, heq⟩ := h.unwrap
      cases hshapes with
      | object hopen hobject hproperties hvalues hplans =>
          injection heq with hplansEq
          subst hplansEq
          obtain ⟨property, hproperty, hplan⟩ := hplans.of_mem_plans hmem
          obtain ⟨source, hsource, htranslates⟩ := ih hplan hne
          have hinside := Schema.Inside.object hopen hobject hproperties hvalues
          exact ⟨source, hunwraps.of_part (.inside hinside (List.mem_map_of_mem hproperty) hsource),
            htranslates⟩
      | _ => cases heq

/-- A part of a schema has its translation among the parts of the plan, where it may admit null by
unions around it. -/
theorem OpenApi.Schema.Part.exists_plan (h : schema.Part path source)
    (htranslates : Translates doc schema plan) : ∃ inner condition,
      plan.Part path (inner.orNullIf condition) ∧ Translates doc source inner := by
  induction h generalizing plan with
  | here =>
      refine ⟨plan, false, ?_, htranslates⟩
      rw [Plan.orNullIf_false]
      exact .here
  | inside hinside hmem _ ih =>
      cases hinside with
      | boolean | anyUnion | bareArray | scalar | text => cases hmem
      | union hreference hother =>
          cases List.mem_singleton.1 hmem
          obtain ⟨bare, hbare, rfl⟩ := htranslates.of_unwrapNullable hreference hother
          obtain ⟨inner, condition, hpart, hinner⟩ := ih hbare
          obtain ⟨condition, hpart⟩ := hpart.orNull
          exact ⟨inner, condition, hpart, hinner⟩
      | array hplain htype hitems =>
          cases List.mem_singleton.1 hmem
          obtain ⟨item, hitem, rfl⟩ := htranslates.of_array hplain htype hitems
          obtain ⟨inner, condition, hpart, hinner⟩ := ih hitem
          exact ⟨inner, condition, .item hpart, hinner⟩
      | map hopen hobject _ hvalues =>
          cases List.mem_singleton.1 hmem
          obtain ⟨values, hplan, rfl⟩ := htranslates.of_map hopen hobject hvalues
          obtain ⟨inner, condition, hpart, hinner⟩ := ih hplan
          exact ⟨inner, condition, .entry hpart, hinner⟩
      | object hopen hobject hproperties =>
          obtain ⟨property, hproperty, heq⟩ := List.mem_map.1 hmem
          cases heq
          obtain ⟨plans, hplans, rfl⟩ := htranslates.of_object hopen hobject hproperties
          obtain ⟨own, hown, hplan⟩ := hplans.of_mem hproperty
          obtain ⟨inner, condition, hpart, hinner⟩ := ih hplan
          exact ⟨inner, condition, .property hown hpart, hinner⟩

end Translation

/-! ## References -/

/-- A schema refers to a type: a reference to it is a part of the schema. -/
def OpenApi.Schema.Refers (schema : Schema) (typeName : String) : Prop :=
  ∃ path k reference, schema.Part path (.object k) ∧ k.reference = some reference ∧
    referencedName? reference = some typeName

/-- A plan names a type: a delegation to it is a part of the plan. -/
def Plan.Mentions (plan : Plan) (typeName : String) : Prop :=
  ∃ path nullable, plan.Part path (.delegate typeName nullable)

section Mentions

variable {typeName : String} {nullable : Bool}

theorem Plan.Mentions.mem_typeNames {r : Registry} {plan : Plan} (h : plan.Mentions typeName)
    (hknows : r.Knows plan) : typeName ∈ r.typeNames := by
  obtain ⟨path, nullable, hpart⟩ := h
  cases hknows.of_part hpart with
  | delegate hmem => exact hmem

theorem Plan.not_mentions_primitive : ¬ Plan.primitive.Mentions typeName := by
  rintro ⟨path, inner, h⟩
  cases h

theorem Plan.not_mentions_date : ¬ (Plan.date nullable).Mentions typeName := by
  rintro ⟨path, inner, h⟩
  cases h

theorem Plan.mentions_delegate {other : String} :
    (Plan.delegate other nullable).Mentions typeName ↔ typeName = other := by
  constructor
  · rintro ⟨path, inner, h⟩
    cases h
    rfl
  · rintro rfl
    exact ⟨[], nullable, .here⟩

theorem Plan.mentions_array {item : Plan} :
    (Plan.array item nullable).Mentions typeName ↔ item.Mentions typeName := by
  constructor
  · rintro ⟨path, inner, h⟩
    cases h with
    | item h => exact ⟨_, inner, h⟩
  · rintro ⟨path, inner, h⟩
    exact ⟨_, inner, .item h⟩

theorem Plan.mentions_map {values : Plan} :
    (Plan.map values nullable).Mentions typeName ↔ values.Mentions typeName := by
  constructor
  · rintro ⟨path, inner, h⟩
    cases h with
    | entry h => exact ⟨_, inner, h⟩
  · rintro ⟨path, inner, h⟩
    exact ⟨_, inner, .entry h⟩

theorem Plan.mentions_object {properties : List (String × Plan)} :
    (Plan.object properties nullable).Mentions typeName ↔
      ∃ property ∈ properties, property.2.Mentions typeName := by
  constructor
  · rintro ⟨path, inner, h⟩
    cases h with
    | property hmem h => exact ⟨_, hmem, _, inner, h⟩
  · rintro ⟨property, hmem, path, inner, h⟩
    exact ⟨_, inner, .property hmem h⟩

end Mentions

theorem OpenApi.Document.resolve_eq_ok_iff {doc : Document} {reference name : String}
    {target : Schema} : doc.resolve reference = .ok (name, target) ↔
      referencedName? reference = some name ∧ doc.schema? name = some target := by
  unfold Document.resolve
  rcases referencedName? reference with _ | found
  · simp
  · rcases hschema : doc.schema? found with _ | schema
    · simp only [hschema, Option.some.injEq, reduceCtorEq, false_iff, not_and]
      rintro rfl
      simp [hschema]
    · simp only [hschema, Except.ok.injEq, Prod.mk.injEq, Option.some.injEq]
      constructor
      · rintro ⟨rfl, rfl⟩
        exact ⟨rfl, hschema⟩
      · rintro ⟨rfl, htarget⟩
        rw [hschema, Option.some_inj] at htarget
        exact ⟨rfl, htarget⟩

section References

variable {doc : Document} {schema source : Schema} {plan : Plan} {typeName : String}

/-- A schema refers to whatever its parts refer to. -/
theorem OpenApi.Schema.Part.refers {path : List Access} (h : schema.Part path source)
    (hrefers : source.Refers typeName) : schema.Refers typeName := by
  obtain ⟨more, k, reference, hpart, hreference, hname⟩ := hrefers
  exact ⟨path ++ more, k, reference, h.trans hpart, hreference, hname⟩

/-- The plan of a schema names the types that the schema refers to, and no others. -/
theorem Translates.mentions_iff (h : Translates doc schema plan) :
    plan.Mentions typeName ↔ schema.Refers typeName := by
  constructor
  · rintro ⟨path, nullable, hpart⟩
    obtain ⟨source, hsource, htranslates⟩ := h.exists_part hpart (by simp)
    obtain ⟨bare, wrapped, own, hunwraps, hshapes, heq⟩ := htranslates.unwrap
    refine hsource.refers ((hunwraps.of_part .here).refers ?_)
    cases hshapes with
    | reference hreference hresolve =>
        injection heq with hname
        subst hname
        exact ⟨[], _, _, .here, hreference, (Document.resolve_eq_ok_iff.1 hresolve).1⟩
    | _ => cases heq
  · rintro ⟨path, k, reference, hpart, hreference, hname⟩
    obtain ⟨inner, condition, hplan, hinner⟩ := hpart.exists_plan h
    obtain ⟨name, target, hresolve, rfl⟩ := hinner.of_reference hreference
    rw [(Document.resolve_eq_ok_iff.1 hresolve).1, Option.some_inj] at hname
    subst hname
    exact ⟨path, _, hplan⟩

end References

end DateReviver
