import DateReviver.Proofs.Conversion

/-!
# Where generated functions read from null

A response that its schema admits fits the plan of the operation, and a property that may be missing
by the schema may be missing by the plan. So the function of the operation reads nothing from
null or from a missing value, except where null stands in the place of an object that a function is
given as a whole: the response itself, or the value of a reference that does not admit null to a
component that does.
-/

namespace DateReviver

open DateReviver.OpenApi DateReviver.TypeScript Generation

/-- A schema admits a value. `missing` says which properties of an object may be missing. Of values
that hold no dates nothing is asked. -/
inductive OpenApi.Schema.Admits (doc : Document) (missing : String × Schema → Prop) :
    Schema → Value → Prop
  | boolean {admits : Bool} {value : Value} : Admits doc missing (.boolean admits) value
  | null {k : Keywords Schema} (hnull : k.isNullable = true) :
      Admits doc missing (.object k) .null
  | reference {k : Keywords Schema} {reference name : String} {target : Schema} {value : Value}
      (hreference : k.reference = some reference)
      (hresolve : doc.resolve reference = .ok (name, target))
      (h : Admits doc missing target value) : Admits doc missing (.object k) value
  | union {k : Keywords Schema} {other : Schema} {value : Value} (hreference : k.reference = none)
      (hother : k.unwrapNullable = some other) (h : Admits doc missing other value) :
      Admits doc missing (.object k) value
  | anyUnion {k : Keywords Schema} {value : Value} (hreference : k.reference = none)
      (hother : k.unwrapNullable = none) (hunion : k.anyOf.isSome) :
      Admits doc missing (.object k) value
  | array {k : Keywords Schema} {items : Schema} {values : List Value} (hplain : IsPlain k)
      (htype : k.primaryType = some "array") (hitems : k.items = some items)
      (h : ∀ value ∈ values, Admits doc missing items value) :
      Admits doc missing (.object k) (.array values)
  | anyArray {k : Keywords Schema} {values : List Value} (hplain : IsPlain k)
      (htype : k.primaryType = some "array") (hitems : k.items = none) :
      Admits doc missing (.object k) (.array values)
  | scalar {k : Keywords Schema} {value : Value} (hplain : IsPlain k) (hscalar : IsScalar k) :
      Admits doc missing (.object k) value
  | map {k : Keywords Schema} {values : Schema} {fields : List (String × Value)} (hopen : IsOpen k)
      (hobject : k.isObject = true) (hvalues : k.mapValues = some values)
      (hnodup : (fields.map Prod.fst).Nodup)
      (h : ∀ field ∈ fields, Admits doc missing values field.2) :
      Admits doc missing (.object k) (.object fields)
  | object {k : Keywords Schema} {properties : List (String × Schema)}
      {fields : List (String × Value)} (hopen : IsOpen k) (hobject : k.isObject = true)
      (hproperties : k.properties = some properties) (hnodup : (fields.map Prod.fst).Nodup)
      (hmissing : ∀ property ∈ properties, fields.lookup property.1 = none → missing property)
      (h : ∀ property ∈ properties, ∀ value, fields.lookup property.1 = some value →
        Admits doc missing property.2 value) :
      Admits doc missing (.object k) (.object fields)
  | date {k : Keywords Schema} {source : String} (hopen : IsOpen k) (hobject : k.isObject = false)
      (hformat : k.format = some "date-time") : Admits doc missing (.object k) (.text source)
  | text {k : Keywords Schema} {value : Value} (hopen : IsOpen k) (hobject : k.isObject = false)
      (hformat : k.format ≠ some "date-time") : Admits doc missing (.object k) value

/-- Which properties may be missing from what a run converts: none where all are to be there, and
otherwise those without dates and those under whose names objects inherit nothing. -/
def OpenApi.Document.MayLack (doc : Document) (allPresent : Bool) (property : String × Schema) :
    Prop :=
  allPresent = false ∧
    (property.1 ∈ inheritedNames → ∀ path nullable, ¬ property.2.DateAt doc path nullable)

section Fits

variable {doc : Document} {r : Registry} {missing : String × Plan → Prop} {k : Keywords Schema}
  {plan : Plan} {value : Value}

theorem Plan.admitsNull_orNull (plan : Plan) :
    plan.orNull = .primitive ∨ plan.orNull.admitsNull = true := by
  cases plan with
  | primitive => exact .inl rfl
  | date | delegate | array | map | object => exact .inr rfl

theorem Shapes.admitsNull (h : Shapes doc (.object k) plan) (hnull : k.isNullable = true) :
    plan = .primitive ∨ plan.admitsNull = true := by
  cases h with
  | union | scalar | text => exact .inl rfl
  | reference | array | bareArray | map | object | date => exact .inr hnull

/-- Null fits the plan of a schema that admits null. -/
theorem Translates.fits_null (h : Translates doc (.object k) plan) (hnull : k.isNullable = true) :
    Fits r missing plan .null := by
  have hplan : plan = .primitive ∨ plan.admitsNull = true := by
    cases h with
    | shape h => exact h.admitsNull hnull
    | @wrapped _ _ inner _ _ _ => exact inner.admitsNull_orNull
  rcases hplan with rfl | hadmits
  · exact .primitive
  · exact .null hadmits

/-- A value that fits a plan fits it also where null is admitted. -/
theorem Fits.orNull (h : Fits r missing plan value) : Fits r missing plan.orNull value := by
  cases h with
  | primitive => exact .primitive
  | null =>
      rcases plan.admitsNull_orNull with hprimitive | hnull
      · rw [hprimitive]
        exact .primitive
      · exact .null hnull
  | date => exact .date
  | delegate hplan h => exact .delegate hplan h
  | array h => exact .array h
  | map hnodup h => exact .map hnodup h
  | object hnodup hmissing h => exact .object hnodup hmissing h

/-- A property may be missing by its plan if it may be by its schema: they hold the same dates. -/
theorem OpenApi.Document.MayLack.toPlan {allPresent : Bool} {name : String} {schema : Schema}
    (h : doc.MayLack allPresent (name, schema)) (hmirrors : r.Mirrors doc)
    (htranslates : Translates doc schema plan) : r.MayLack allPresent (name, plan) := by
  refine ⟨h.1, fun hname hdate => ?_⟩
  obtain ⟨path, nullable, hpath⟩ := hdate.exists_dates
  exact h.2 hname path nullable (dateAt_schema hmirrors hpath htranslates)

/-- The values that a schema admits fit its plan. -/
theorem OpenApi.Schema.Admits.fits {allPresent : Bool} {schema : Schema}
    (hfaithful : r.Faithful doc) (h : schema.Admits doc (doc.MayLack allPresent) value)
    (htranslates : Translates doc schema plan) (hknows : r.Knows plan) :
    Fits r (r.MayLack allPresent) plan value := by
  induction h generalizing plan with
  | boolean =>
      cases htranslates with
      | shape h =>
          cases h
          exact .primitive
  | null hnull => exact htranslates.fits_null hnull
  | reference hreference hresolve _ ih =>
      obtain ⟨name, target, hresolved, rfl⟩ := htranslates.of_reference hreference
      rw [hresolve] at hresolved
      cases hresolved
      cases hknows with
      | delegate hmem =>
          obtain ⟨own, hplan, hown⟩ := hfaithful.mirrors.plan?_of_resolve hresolve hmem
          exact .delegate hplan (ih hown (hfaithful.sound.knows _ _ hplan))
  | union hreference hother _ ih =>
      obtain ⟨bare, hbare, rfl⟩ := htranslates.of_unwrapNullable hreference hother
      exact (ih hbare hknows.of_orNull).orNull
  | anyUnion hreference hother hunion =>
      rw [htranslates.of_anyUnion hreference hother hunion]
      exact .primitive
  | array hplain htype hitems _ ih =>
      obtain ⟨item, hitem, rfl⟩ := htranslates.of_array hplain htype hitems
      cases hknows with
      | array hknows => exact .array fun value hmem => ih value hmem hitem hknows
  | anyArray hplain htype hitems =>
      rw [htranslates.of_bareArray hplain htype hitems]
      exact .array fun _ _ => .primitive
  | scalar hplain hscalar =>
      rw [htranslates.of_scalar hplain hscalar]
      exact .primitive
  | map hopen hobject hvalues hnodup _ ih =>
      obtain ⟨values, hplan, rfl⟩ := htranslates.of_map hopen hobject hvalues
      cases hknows with
      | map hknows => exact .map hnodup fun field hmem => ih field hmem hplan hknows
  | object hopen hobject hproperties hnodup hmissing _ ih =>
      obtain ⟨plans, hplans, rfl⟩ := htranslates.of_object hopen hobject hproperties
      cases hknows with
      | object hknows =>
          refine .object hnodup ?_ ?_
          · intro property hmem hnone
            obtain ⟨schema, hschema, hplan⟩ := hplans.of_mem_plans hmem
            exact (hmissing _ hschema hnone).toPlan hfaithful.mirrors hplan
          · intro property hmem value hvalue
            obtain ⟨schema, hschema, hplan⟩ := hplans.of_mem_plans hmem
            exact ih _ hschema value hvalue hplan (hknows _ hmem)
  | date hopen hobject hformat =>
      rw [htranslates.of_date hopen hobject hformat]
      exact .date
  | text hopen hobject hformat =>
      rw [htranslates.of_text hopen hobject hformat]
      exact .primitive

end Fits

/-! ## Where a function is given null -/

/-- Along a schema, a function is given null in place of an object with dates. `nested` says that
the value stands inside of one that a function was given, `wrapped` that a union right around the
schema admits null. -/
inductive OpenApi.Schema.GivesNull (doc : Document) :
    (nested wrapped : Bool) → Schema → Value → Prop
  | object {wrapped : Bool} {k : Keywords Schema} {properties : List (String × Schema)}
      {path : List Access} {nullable : Bool} (hopen : IsOpen k) (hobject : k.isObject = true)
      (hproperties : k.properties = some properties)
      (hdate : (Schema.object k).DateAt doc path nullable) :
      GivesNull doc false wrapped (.object k) .null
  | reference {nested wrapped : Bool} {k : Keywords Schema} {reference name : String}
      {target : Schema} {value : Value} (hreference : k.reference = some reference)
      (hresolve : doc.resolve reference = .ok (name, target))
      (hgiven : (k.isNullable || wrapped) = false ∨ value ≠ .null)
      (h : GivesNull doc false false target value) : GivesNull doc nested wrapped (.object k) value
  | union {nested wrapped : Bool} {k : Keywords Schema} {other : Schema} {value : Value}
      (hreference : k.reference = none) (hother : k.unwrapNullable = some other)
      (h : GivesNull doc nested true other value) : GivesNull doc nested wrapped (.object k) value
  | item {nested wrapped : Bool} {k : Keywords Schema} {items : Schema} {values : List Value}
      {value : Value} (hplain : IsPlain k) (htype : k.primaryType = some "array")
      (hitems : k.items = some items) (hmem : value ∈ values)
      (h : GivesNull doc true false items value) :
      GivesNull doc nested wrapped (.object k) (.array values)
  | entry {nested wrapped : Bool} {k : Keywords Schema} {values : Schema}
      {fields : List (String × Value)} {field : String × Value} (hopen : IsOpen k)
      (hobject : k.isObject = true) (hvalues : k.mapValues = some values) (hmem : field ∈ fields)
      (h : GivesNull doc true false values field.2) :
      GivesNull doc nested wrapped (.object k) (.object fields)
  | property {nested wrapped : Bool} {k : Keywords Schema} {properties : List (String × Schema)}
      {property : String × Schema} {fields : List (String × Value)} {value : Value}
      (hopen : IsOpen k) (hobject : k.isObject = true)
      (hproperties : k.properties = some properties) (hmem : property ∈ properties)
      (hvalue : fields.lookup property.1 = some value)
      (h : GivesNull doc true false property.2 value) :
      GivesNull doc nested wrapped (.object k) (.object fields)

section GivesNull

variable {doc : Document} {r : Registry} {nested wrapped : Bool} {schema : Schema} {plan : Plan}
  {value : Value}

/-- Where a function is given null along a schema, the run stumbles. -/
theorem OpenApi.Schema.GivesNull.stumbles (hfaithful : r.Faithful doc)
    (h : schema.GivesNull doc nested wrapped value) (htranslates : Translates doc schema plan)
    (hknows : r.Knows plan) : Stumbles r nested (plan.orNullIf wrapped) value := by
  induction h generalizing plan with
  | object hopen hobject hproperties hdate =>
      have hplan := dateAt_plan hfaithful.mirrors hfaithful.sound hdate htranslates hknows
      obtain ⟨plans, _, rfl⟩ := htranslates.of_object hopen hobject hproperties
      have hholds := Registry.holdsDate_object_iff.1 (Registry.Dates.holdsDate ⟨_, hplan⟩)
      exact .object (Registry.holdsDate_object_iff.2 hholds)
  | reference hreference hresolve hgiven _ ih =>
      obtain ⟨name, target, hresolved, rfl⟩ := htranslates.of_reference hreference
      rw [hresolve] at hresolved
      cases hresolved
      cases hknows with
      | delegate hmem =>
          obtain ⟨own, hplan, hown⟩ := hfaithful.mirrors.plan?_of_resolve hresolve hmem
          have hinner := ih hown (hfaithful.sound.knows _ _ hplan)
          rw [Plan.orNullIf_false] at hinner
          exact .delegate hplan hgiven hinner
  | union hreference hother _ ih =>
      obtain ⟨bare, hbare, rfl⟩ := htranslates.of_unwrapNullable hreference hother
      rw [Plan.orNullIf_orNull]
      exact ih hbare hknows.of_orNull
  | item hplain htype hitems hmem _ ih =>
      obtain ⟨item, hitem, rfl⟩ := htranslates.of_array hplain htype hitems
      cases hknows with
      | array hknows =>
          have hinner := ih hitem hknows
          rw [Plan.orNullIf_false] at hinner
          exact .item hmem hinner
  | entry hopen hobject hvalues hmem _ ih =>
      obtain ⟨values, hplan, rfl⟩ := htranslates.of_map hopen hobject hvalues
      cases hknows with
      | map hknows =>
          have hinner := ih hplan hknows
          rw [Plan.orNullIf_false] at hinner
          exact .entry hmem hinner
  | property hopen hobject hproperties hmem hvalue _ ih =>
      obtain ⟨plans, hplans, rfl⟩ := htranslates.of_object hopen hobject hproperties
      obtain ⟨own, hown, hplan⟩ := hplans.of_mem hmem
      cases hknows with
      | object hknows =>
          have hinner := ih hplan (hknows _ hown)
          rw [Plan.orNullIf_false] at hinner
          exact .property hown hvalue hinner

theorem Unwraps.givesNull {bare : Schema} {inner : Bool} (h : Unwraps schema inner bare)
    (hgives : bare.GivesNull doc nested (inner || wrapped) value) :
    schema.GivesNull doc nested wrapped value := by
  induction h generalizing wrapped with
  | refl => simpa using hgives
  | step hreference hinner _ ih =>
      refine .union hreference hinner (ih ?_)
      rwa [Bool.or_true]

theorem Translates.givesNull (h : Translates doc schema plan)
    (hshapes : ∀ bare own inner, Shapes doc bare own → plan = own.orNullIf inner →
      bare.GivesNull doc nested inner value) : schema.GivesNull doc nested false value := by
  obtain ⟨bare, inner, own, hunwraps, hown, heq⟩ := h.unwrap
  refine hunwraps.givesNull ?_
  rw [Bool.or_false]
  exact hshapes bare own inner hown heq

/-- Where the run stumbles, a function is given null along the schema. Unions with null are looked
through first, for they leave no trace in the plan but its null flag. -/
theorem Stumbles.givesNull (hmirrors : r.Mirrors doc) (h : Stumbles r nested plan value)
    (bare : Schema) (own : Plan) (wrapped : Bool) (hshapes : Shapes doc bare own)
    (heq : plan = own.orNullIf wrapped) : bare.GivesNull doc nested wrapped value := by
  induction h generalizing bare own wrapped with
  | @object properties nullable hdate =>
      cases hshapes with
      | @object k _ _ hopen hobject hproperties hvalues hplans =>
          injection heq with hplansEq
          subst hplansEq
          have hholds : r.HoldsDate (.object properties k.isNullable) :=
            Registry.holdsDate_object_iff.2 (Registry.holdsDate_object_iff.1 hdate)
          obtain ⟨path, inner, hpath⟩ := hholds.exists_dates
          exact .object hopen hobject hproperties (dateAt_schema hmirrors hpath
            (.shape (.object hopen hobject hproperties hvalues hplans)))
      | _ => cases heq
  | delegate hplan hcalled _ ih =>
      cases hshapes with
      | reference hreference hresolve =>
          injection heq with hname hnullable
          subst hname
          rw [hnullable] at hcalled
          have hown := hmirrors.translates_of_resolve hresolve hplan
          exact .reference hreference hresolve hcalled (hown.givesNull ih)
      | _ => cases heq
  | item hmem hstumbles ih =>
      cases hshapes with
      | array hplain htype hitems hitem =>
          injection heq with hitemEq
          subst hitemEq
          exact .item hplain htype hitems hmem (hitem.givesNull ih)
      | bareArray =>
          injection heq with hitemEq
          subst hitemEq
          cases hstumbles
      | _ => cases heq
  | entry hmem _ ih =>
      cases hshapes with
      | map hopen hobject _ hvalues hplan =>
          injection heq with hplanEq
          subst hplanEq
          exact .entry hopen hobject hvalues hmem (hplan.givesNull ih)
      | _ => cases heq
  | property hmem hvalue _ ih =>
      cases hshapes with
      | object hopen hobject hproperties _ hplans =>
          injection heq with hplansEq
          subst hplansEq
          obtain ⟨source, hsource, hplan⟩ := hplans.of_mem_plans hmem
          exact .property hopen hobject hproperties hsource hvalue (hplan.givesNull ih)
      | _ => cases heq

/-- The run stumbles exactly where a function is given null along the schema. -/
theorem stumbles_iff_givesNull (hfaithful : r.Faithful doc)
    (htranslates : Translates doc schema plan) (hknows : r.Knows plan) :
    Stumbles r nested plan value ↔ schema.GivesNull doc nested false value := by
  constructor
  · exact fun h => htranslates.givesNull (h.givesNull hfaithful.mirrors)
  · intro h
    have hstumbles := h.stumbles hfaithful htranslates hknows
    rwa [Plan.orNullIf_false] at hstumbles

end GivesNull

/-! ## Functions of operations -/

/-- The function of an operation, called on a response that its schema admits with nothing missing
but what may be, reads from nothing exactly if a function is given null along the schema. -/
theorem operationFunction_readsNothing_iff {options : Options} {doc : Document} {output : Output}
    (htidy : doc.Tidy) (hrun : generate options doc = .ok output)
    (hnames : NamesApart output.toModule) {f : Function} (hf : f ∈ output.operationFunctions) :
    ∃ endpoint ∈ endpoints doc, ∃ schema, successSchema endpoint.operation = .ok (some schema) ∧
      f.name = "transform" ++ Text.capitalize (operationName endpoint.path endpoint.method
        endpoint.operation) ++ "OperationResponse" ∧
      ∀ value, schema.Admits doc (doc.MayLack options.requireAllProperties) value →
        ((∃ fuel, call output.toModule fuel f.name value = .error .nothingRead) ↔
          schema.GivesNull doc false false value) := by
  obtain ⟨operations, r, hplanning⟩ := generate_ok_iff.1 ⟨output, hrun⟩
  obtain ⟨operation, hmem, endpoint, schema, hconverts, hname, hcall⟩ :=
    call_operationFunction htidy hplanning hrun hnames hf
  rw [hconverts.name] at hname
  refine ⟨endpoint, hconverts.mem, schema, hconverts.response, hname, fun value hadmits => ?_⟩
  have hfaithful := (planning_ok hplanning).1
  have hfits := hadmits.fits hfaithful hconverts.translates hconverts.knows
  rw [← stumbles_iff_givesNull hfaithful hconverts.translates hconverts.knows]
  constructor
  · rintro ⟨fuel, hfault⟩
    by_contra hnot
    obtain ⟨after, hsettles⟩ := (hcall value hfits).1 hnot
    have hsteady := fun fuel => (Module.steady output.toModule fuel).call f.name value
    rcases hsettles.unique hsteady fuel with hexhausted | hreturned
    · rw [hfault] at hexhausted
      cases hexhausted
    · rw [hfault] at hreturned
      cases hreturned
  · intro hstumbles
    obtain ⟨enough, henough⟩ := (hcall value hfits).2 hstumbles
    exact ⟨enough, henough enough (Nat.le_refl _)⟩

section Chained

theorem admits_chainedEntry {nullable : Bool} {missing : String × Schema → Prop} {next : Value}
    {source : String} (h : chainedLink.Admits (chained nullable) missing next) :
    (chainedEntry nullable).Admits (chained nullable) missing
      (.object [("next", next), ("at", .text source)]) := by
  have hopen : IsOpen { Keywords.bare with format := some "date-time" } :=
    isOpen_of_untyped ⟨rfl, rfl, rfl⟩ rfl
  refine .object (isOpen_of_untyped ⟨rfl, rfl, rfl⟩ rfl) rfl rfl (by simp) (by simp) ?_
  rintro _ hmem value hvalue
  rcases List.mem_pair.1 hmem with rfl | rfl
  · cases hvalue
    exact h
  · cases hvalue
    exact .date hopen rfl rfl

/-- Both entries are there and the last link is null, so nothing is read from null. -/
theorem operationFunction_readsNothing_iff_chained : ∃ output f,
    generate {} (chained true) = .ok output ∧ f ∈ output.operationFunctions ∧
      ¬ ∃ fuel, call output.toModule fuel f.name (twoEntries .text) = .error .nothingRead := by
  obtain ⟨output, hrun⟩ := generate_ok_iff.2 ⟨_, _, planning_chained true⟩
  have hf := functionOfOperation_mem_chained true hrun
  refine ⟨output, _, hrun, hf, ?_⟩
  obtain ⟨endpoint, hmem, schema, hresponse, _, hiff⟩ := operationFunction_readsNothing_iff
    (tidy_chained true) hrun (namesApart_chained true hrun) hf
  rw [endpoints_chained, List.mem_singleton] at hmem
  subst hmem
  rw [successSchema_latestEntry] at hresponse
  cases hresponse
  have hadmits : (Schema.referring "Entry").Admits (chained true) ((chained true).MayLack false)
      (twoEntries .text) :=
    .reference rfl (resolve_chained true) (admits_chainedEntry (.union rfl rfl
      (.reference rfl (resolve_chained true) (admits_chainedEntry (.null rfl)))))
  obtain ⟨hfaithful, hconverts⟩ := converts_chained true
  rw [hiff _ hadmits, ← stumbles_iff_givesNull hfaithful hconverts.translates hconverts.knows]
  have hdelegate {nested nullable : Bool} {value : Value} :=
    @stumbles_delegate_iff _ nested _ value _ nullable (needsFunction_chained true).plan?
  simp [latestPlan, hdelegate, chainedPlan, twoEntries, stumbles_object_iff, not_stumbles_date]

/-- The component admits null and the reference to it does not: the response may be null, and the
function that it is given to reads a property at once. -/
theorem operationFunction_reads_null : ∃ output f,
    generate {} (chained true) = .ok output ∧ f ∈ output.operationFunctions ∧
      endpoints (chained true) = [⟨"/entries", .get, latestEntry⟩] ∧
      successSchema latestEntry = .ok (some (.referring "Entry")) ∧
      (Schema.referring "Entry").Admits (chained true) ((chained true).MayLack false) .null ∧
      ∃ fuel, call output.toModule fuel f.name .null = .error .nothingRead := by
  obtain ⟨output, hrun⟩ := generate_ok_iff.2 ⟨_, _, planning_chained true⟩
  have hf := functionOfOperation_mem_chained true hrun
  have hneeds := needsFunction_chained true
  obtain ⟨operation, hmem, _, _, _, _, hcall⟩ := call_operationFunction (tidy_chained true)
    (planning_chained true) hrun (namesApart_chained true hrun) hf
  rw [List.mem_singleton.1 hmem] at hcall
  have hstumbles : Stumbles (chainedRegistry true) false latestPlan.plan .null :=
    .delegate hneeds.plan? (.inl rfl) (.object hneeds.holdsDate)
  obtain ⟨enough, henough⟩ := (hcall .null (.delegate hneeds.plan? (.null rfl))).2 hstumbles
  exact ⟨output, _, hrun, hf, endpoints_chained true, successSchema_latestEntry,
    .reference rfl (resolve_chained true) (.null rfl), enough, henough enough (Nat.le_refl _)⟩

end Chained

end DateReviver
