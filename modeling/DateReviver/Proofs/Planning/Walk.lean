import DateReviver.Proofs.Operations
import DateReviver.Proofs.Planning.Parts

/-!
# The walk over a document

What planning looks at, as a walk with an agenda and without any plans: first the requested types in
their order, then the operations in theirs, and in each the schemas depth first. The first reference
to a type puts its schema on top of the agenda, every later one is passed over. The walk stops at the
first defect that it meets, and from every point of it there is at most one way on.
-/

namespace DateReviver

open DateReviver.OpenApi

/-- Something that a walk looks at. -/
inductive Walk.Item where
  | type (typeName : String)
  | endpoint (endpoint : Endpoint)
  | schema (schema : Schema)

/-- How far a walk has come. -/
structure Walk where
  /-- The types met so far, in the order in which they were met. -/
  met : List String
  /-- The names of the operations met so far, the latest first. -/
  taken : List String
  /-- What lies ahead, the next first. -/
  ahead : List Walk.Item

namespace Walk

/-- The schemas inside of a schema, as they are put on the agenda. -/
def items (parts : List (List Access × Schema)) : List Item :=
  parts.map fun part => .schema part.2

/-- One step of a walk: it takes what is next from the agenda, and puts what is found there on top
of it. -/
inductive Step (doc : Document) : Walk → Walk → Prop
  | knownType {met taken : List String} {ahead : List Item} {typeName : String} {schema : Schema}
      (hschema : doc.schema? typeName = some schema) (hmet : typeName ∈ met) :
      Step doc ⟨met, taken, .type typeName :: ahead⟩ ⟨met, taken, ahead⟩
  | newType {met taken : List String} {ahead : List Item} {typeName : String} {schema : Schema}
      (hschema : doc.schema? typeName = some schema) (hmet : typeName ∉ met) :
      Step doc ⟨met, taken, .type typeName :: ahead⟩
        ⟨met ++ [typeName], taken, .schema schema :: ahead⟩
  | noResponse {met taken : List String} {ahead : List Item} {endpoint : Endpoint}
      (htaken : endpoint.name ∉ taken) (hoffer : endpoint.operation.offer? = none) :
      Step doc ⟨met, taken, .endpoint endpoint :: ahead⟩ ⟨met, endpoint.name :: taken, ahead⟩
  | response {met taken : List String} {ahead : List Item} {endpoint : Endpoint} {schema : Schema}
      (htaken : endpoint.name ∉ taken) (hoffer : endpoint.operation.offer? = some (.inr schema)) :
      Step doc ⟨met, taken, .endpoint endpoint :: ahead⟩
        ⟨met, endpoint.name :: taken, .schema schema :: ahead⟩
  | knownReference {met taken : List String} {ahead : List Item} {k : Keywords Schema}
      {reference name : String} {target : Schema} (hreference : k.reference = some reference)
      (hname : referencedName? reference = some name) (htarget : doc.schema? name = some target)
      (hmet : name ∈ met) :
      Step doc ⟨met, taken, .schema (.object k) :: ahead⟩ ⟨met, taken, ahead⟩
  | newReference {met taken : List String} {ahead : List Item} {k : Keywords Schema}
      {reference name : String} {target : Schema} (hreference : k.reference = some reference)
      (hname : referencedName? reference = some name) (htarget : doc.schema? name = some target)
      (hmet : name ∉ met) :
      Step doc ⟨met, taken, .schema (.object k) :: ahead⟩
        ⟨met ++ [name], taken, .schema target :: ahead⟩
  | inside {met taken : List String} {ahead : List Item} {schema : Schema}
      {parts : List (List Access × Schema)} (hinside : schema.Inside parts) :
      Step doc ⟨met, taken, .schema schema :: ahead⟩ ⟨met, taken, items parts ++ ahead⟩

/-- What is next on the agenda cannot be planned. -/
inductive Defect (doc : Document) : Walk → GenerationError → Prop
  | unknownType {met taken : List String} {ahead : List Item} {typeName : String}
      (hschema : doc.schema? typeName = none) :
      Defect doc ⟨met, taken, .type typeName :: ahead⟩ (.unknownType typeName)
  | duplicateOperation {met taken : List String} {ahead : List Item} {endpoint : Endpoint}
      (htaken : endpoint.name ∈ taken) :
      Defect doc ⟨met, taken, .endpoint endpoint :: ahead⟩ (.duplicateOperation endpoint.name)
  | sharedResponse {met taken : List String} {ahead : List Item} {endpoint : Endpoint}
      {reference : String} (htaken : endpoint.name ∉ taken)
      (hoffer : endpoint.operation.offer? = some (.inl reference)) :
      Defect doc ⟨met, taken, .endpoint endpoint :: ahead⟩ (.unsupportedReference reference)
  | unsupportedReference {met taken : List String} {ahead : List Item} {k : Keywords Schema}
      {reference : String} (hreference : k.reference = some reference)
      (hname : referencedName? reference = none) :
      Defect doc ⟨met, taken, .schema (.object k) :: ahead⟩ (.unsupportedReference reference)
  | unknownSchema {met taken : List String} {ahead : List Item} {k : Keywords Schema}
      {reference name : String} (hreference : k.reference = some reference)
      (hname : referencedName? reference = some name) (htarget : doc.schema? name = none) :
      Defect doc ⟨met, taken, .schema (.object k) :: ahead⟩ (.unknownSchema reference name)
  | conflictingObjectShape {met taken : List String} {ahead : List Item} {k : Keywords Schema}
      (hopen : IsOpen k) (hobject : k.isObject = true) (hproperties : k.properties.isSome)
      (hvalues : k.mapValues.isSome) :
      Defect doc ⟨met, taken, .schema (.object k) :: ahead⟩ .conflictingObjectShape
  | emptyObjectSchema {met taken : List String} {ahead : List Item} {k : Keywords Schema}
      (hopen : IsOpen k) (hobject : k.isObject = true) (hproperties : k.properties = none)
      (hvalues : k.mapValues = none) :
      Defect doc ⟨met, taken, .schema (.object k) :: ahead⟩ .emptyObjectSchema

/-- Any number of steps. -/
abbrev Steps (doc : Document) : Walk → Walk → Prop :=
  Relation.ReflTransGen (Step doc)

/-- The walk for what the options ask for: the requested types, then the operations. -/
def start (options : Options) (doc : Document) : Walk :=
  ⟨[], [], (options.requested doc).map .type ++ (options.operations doc).map .endpoint⟩

/-! ## There is one way on -/

theorem inside_unique {schema : Schema} {parts others : List (List Access × Schema)}
    (h : schema.Inside parts) (h' : schema.Inside others) : parts = others := by
  cases h <;> cases h' <;> grind [IsPlain, IsOpen, IsScalar]

theorem reference_of_inside {k : Keywords Schema} {parts : List (List Access × Schema)}
    (h : (Schema.object k).Inside parts) : k.reference = none := by
  cases h with
  | union hreference | anyUnion hreference => exact hreference
  | array hplain | bareArray hplain | scalar hplain => exact hplain.reference
  | map hopen | object hopen | text hopen => exact hopen.reference

/-- An object schema that cannot be planned is not looked into. -/
theorem not_inside_of_isObject {k : Keywords Schema} {parts : List (List Access × Schema)}
    (hopen : IsOpen k) (hobject : k.isObject = true)
    (hshape : k.properties.isSome = k.mapValues.isSome) : ¬ (Schema.object k).Inside parts := by
  intro h
  cases h with
  | union _ hother => simp [hopen.unwrapNullable] at hother
  | anyUnion _ _ hunion => simp [hopen.anyOf] at hunion
  | array _ htype | bareArray _ htype => exact hopen.notArray htype
  | scalar _ hscalar => exact hopen.notScalar hscalar
  | map _ _ hproperties hvalues | object _ _ hproperties hvalues =>
      simp [hproperties, hvalues] at hshape
  | text _ hnot => simp [hobject] at hnot

section Determinism

variable {doc : Document} {w a b : Walk} {e e' : GenerationError}

theorem Step.unique (h : Step doc w a) (h' : Step doc w b) : a = b := by
  cases h with
  | knownType _ hmet =>
      cases h' with
      | knownType => rfl
      | newType _ hnew => exact absurd hmet hnew
  | newType hschema hnew =>
      cases h' with
      | knownType _ hmet => exact absurd hmet hnew
      | newType hother => rw [Option.some_inj.1 (hschema.symm.trans hother)]
  | noResponse _ hoffer =>
      cases h' with
      | noResponse => rfl
      | response _ hother => simp [hoffer] at hother
  | response _ hoffer =>
      cases h' with
      | noResponse _ hnone => simp [hoffer] at hnone
      | response _ hother => grind
  | knownReference hreference hname _ hmet =>
      cases h' with
      | knownReference => rfl
      | newReference hother hotherName _ hnew => grind
      | inside hinside => simp [reference_of_inside hinside] at hreference
  | newReference hreference hname htarget hnew =>
      cases h' with
      | knownReference hother hotherName _ hmet => grind
      | newReference hother hotherName hotherTarget => grind
      | inside hinside => simp [reference_of_inside hinside] at hreference
  | inside hinside =>
      cases h' with
      | knownReference hreference | newReference hreference =>
          simp [reference_of_inside hinside] at hreference
      | inside hother => rw [inside_unique hinside hother]

/-- A walk does not go on from a defect. -/
theorem Defect.not_step (h : Defect doc w e) : ¬ Step doc w a := by
  intro hstep
  cases h with
  | unknownType hschema => cases hstep <;> grind
  | duplicateOperation htaken =>
      cases hstep with
      | noResponse hnot | response hnot => exact hnot htaken
  | sharedResponse _ hoffer => cases hstep <;> grind
  | unsupportedReference hreference hname =>
      cases hstep with
      | knownReference hother hsome | newReference hother hsome => grind
      | inside hinside => simp [reference_of_inside hinside] at hreference
  | unknownSchema hreference hname htarget =>
      cases hstep with
      | knownReference hother hotherName hsome | newReference hother hotherName hsome => grind
      | inside hinside => simp [reference_of_inside hinside] at hreference
  | conflictingObjectShape hopen hobject hproperties hvalues =>
      cases hstep with
      | knownReference hreference | newReference hreference => simp [hopen.reference] at hreference
      | inside hinside =>
          exact not_inside_of_isObject hopen hobject (hproperties.trans hvalues.symm) hinside
  | emptyObjectSchema hopen hobject hproperties hvalues =>
      cases hstep with
      | knownReference hreference | newReference hreference => simp [hopen.reference] at hreference
      | inside hinside =>
          exact not_inside_of_isObject hopen hobject (by simp [hproperties, hvalues]) hinside

theorem Defect.unique (h : Defect doc w e) (h' : Defect doc w e') : e = e' := by
  cases h with
  | unknownType => cases h'; rfl
  | duplicateOperation htaken =>
      cases h' with
      | duplicateOperation => rfl
      | sharedResponse hnot => exact absurd htaken hnot
  | sharedResponse hnot hoffer => cases h' <;> grind
  | unsupportedReference hreference hname => cases h' <;> grind [IsPlain, IsOpen]
  | unknownSchema hreference hname => cases h' <;> grind [IsPlain, IsOpen]
  | conflictingObjectShape hopen _ hproperties => cases h' <;> grind [IsPlain, IsOpen]
  | emptyObjectSchema hopen _ hproperties => cases h' <;> grind [IsPlain, IsOpen]

theorem not_step_done {met taken : List String} : ¬ Step doc ⟨met, taken, []⟩ a := by
  intro h
  cases h

theorem not_defect_done {met taken : List String} : ¬ Defect doc ⟨met, taken, []⟩ e := by
  intro h
  cases h

/-- From one point, the walk comes to the same end on every way. -/
theorem Steps.end_unique (h : Steps doc w a) (h' : Steps doc w b) (ha : ∀ c, ¬ Step doc a c)
    (hb : ∀ c, ¬ Step doc b c) : a = b := by
  have hunique : Relator.RightUnique (Step doc) := fun _ _ _ => Step.unique
  rcases h.total_of_right_unique hunique h' with hab | hba
  · rcases Relation.ReflTransGen.cases_head hab with heq | ⟨c, hstep, _⟩
    · exact heq
    · exact absurd hstep (ha c)
  · rcases Relation.ReflTransGen.cases_head hba with heq | ⟨c, hstep, _⟩
    · exact heq.symm
    · exact absurd hstep (hb c)

end Determinism

end Walk

end DateReviver
