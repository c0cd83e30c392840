import DateReviver.Proofs.Planning.Equations
import DateReviver.Proofs.Planning.Inversion
import DateReviver.Proofs.Session

/-!
# Planning keeps the places of dates

A path of steps leads through a plan, where delegations are unfolded into the plans of their types,
and through a schema, where references and unions with null are followed. Along the same paths both
lead to a date, and at the end of a path both say the same of null. Neither relation is bounded by
its plan or its schema, for types refer to one another in circles: each direction is an induction on
how the path leads to its end.
-/

namespace DateReviver

open DateReviver.OpenApi

/-- A step into a value. -/
inductive Access where
  | property (name : String)
  | item
  | entry
deriving DecidableEq

/-- A path leads from a plan to a date. `nullable` says that null may stand in its place: by the
date itself, or by a delegation right before it. -/
inductive Plan.DateAt (r : Registry) : Plan → List Access → (nullable : Bool) → Prop
  | here {nullable : Bool} : DateAt r (.date nullable) [] nullable
  | delegate {typeName : String} {nullable inner : Bool} {plan : Plan} {path : List Access}
      (hplan : r.plan? typeName = some plan) (h : DateAt r plan path inner) :
      DateAt r (.delegate typeName nullable) path (inner || (nullable && path.isEmpty))
  | item {item : Plan} {nullable inner : Bool} {path : List Access}
      (h : DateAt r item path inner) : DateAt r (.array item nullable) (.item :: path) inner
  | entry {values : Plan} {nullable inner : Bool} {path : List Access}
      (h : DateAt r values path inner) : DateAt r (.map values nullable) (.entry :: path) inner
  | property {properties : List (String × Plan)} {name : String} {plan : Plan}
      {nullable inner : Bool} {path : List Access} (hmem : (name, plan) ∈ properties)
      (h : DateAt r plan path inner) :
      DateAt r (.object properties nullable) (.property name :: path) inner

/-- A path leads from a schema to a date-time string. `nullable` says that null may stand in its
place: by the schema itself, or by a reference or a union with null right before it. -/
inductive OpenApi.Schema.DateAt (doc : Document) :
    Schema → List Access → (nullable : Bool) → Prop
  | here {k : Keywords Schema} (hopen : IsOpen k) (hobject : k.isObject = false)
      (hformat : k.format = some "date-time") : DateAt doc (.object k) [] k.isNullable
  | reference {k : Keywords Schema} {reference name : String} {target : Schema} {inner : Bool}
      {path : List Access} (hreference : k.reference = some reference)
      (hresolve : doc.resolve reference = .ok (name, target)) (h : DateAt doc target path inner) :
      DateAt doc (.object k) path (inner || (k.isNullable && path.isEmpty))
  | union {k : Keywords Schema} {other : Schema} {inner : Bool} {path : List Access}
      (hreference : k.reference = none) (hother : k.unwrapNullable = some other)
      (h : DateAt doc other path inner) :
      DateAt doc (.object k) path (inner || (k.isNullable && path.isEmpty))
  | item {k : Keywords Schema} {items : Schema} {inner : Bool} {path : List Access}
      (hplain : IsPlain k) (htype : k.primaryType = some "array") (hitems : k.items = some items)
      (h : DateAt doc items path inner) : DateAt doc (.object k) (.item :: path) inner
  | entry {k : Keywords Schema} {values : Schema} {inner : Bool} {path : List Access}
      (hopen : IsOpen k) (hobject : k.isObject = true) (hvalues : k.mapValues = some values)
      (h : DateAt doc values path inner) : DateAt doc (.object k) (.entry :: path) inner
  | property {k : Keywords Schema} {properties : List (String × Schema)} {name : String}
      {schema : Schema} {inner : Bool} {path : List Access} (hopen : IsOpen k)
      (hobject : k.isObject = true) (hproperties : k.properties = some properties)
      (hmem : (name, schema) ∈ properties) (h : DateAt doc schema path inner) :
      DateAt doc (.object k) (.property name :: path) inner

/-! ## Null at the end of a path -/

theorem isNullable_of_unwrapNullable {k : Keywords Schema} {inner : Schema}
    (h : k.unwrapNullable = some inner) : k.isNullable = true := by
  obtain ⟨members, hmembers, _⟩ := mem_anyOf_of_unwrapNullable h
  rcases hnull : members.any Schema.isNullType with _ | _
  · simp [Keywords.unwrapNullable, hmembers, hnull] at h
  · simp [Keywords.isNullable, hmembers, hnull]

section Null

variable {r : Registry} {doc : Document} {plan : Plan} {path : List Access} {nullable : Bool}

/-- A plan that also admits null leads to the same dates, and admits null where the path ends with
the plan itself. -/
theorem Plan.DateAt.orNull (h : plan.DateAt r path nullable) :
    plan.orNull.DateAt r path (nullable || path.isEmpty) := by
  cases h with
  | here =>
      rw [List.isEmpty_nil, Bool.or_true]
      exact .here
  | @delegate typeName nullable inner plan _ hplan h =>
      have hlink : (Plan.delegate typeName true).DateAt r path (inner || (true && path.isEmpty)) :=
        .delegate hplan h
      have heq : (inner || (nullable && path.isEmpty) || path.isEmpty)
          = (inner || (true && path.isEmpty)) := by
        cases inner <;> cases nullable <;> cases path.isEmpty <;> rfl
      rw [heq]
      exact hlink
  | item h =>
      rw [List.isEmpty_cons, Bool.or_false]
      exact .item h
  | entry h =>
      rw [List.isEmpty_cons, Bool.or_false]
      exact .entry h
  | property hmem h =>
      rw [List.isEmpty_cons, Bool.or_false]
      exact .property hmem h

/-- What unions with null lead to, and where they admit null. -/
theorem Unwraps.dateAt {schema bare : Schema} {wrapped : Bool} (h : Unwraps schema wrapped bare)
    (hdate : bare.DateAt doc path nullable) :
    schema.DateAt doc path (nullable || (wrapped && path.isEmpty)) := by
  induction h with
  | refl => simpa using hdate
  | @step k inner schema wrapped hreference hinner _ ih =>
      have hunion := Schema.DateAt.union hreference hinner (ih hdate)
      rw [isNullable_of_unwrapNullable hinner] at hunion
      cases wrapped <;> simpa [Bool.or_assoc] using hunion

end Null

/-! ## Registries that planning leaves -/

/-- The registries that a session of planning leaves if every call succeeds: components are
registered with their own schemas, and schemas are planned. -/
inductive Registry.PlannedFrom (doc : Document) : Registry → Prop
  | empty : PlannedFrom doc .empty
  | register {r r' : Registry} {typeName : String} {schema : Schema} (h : PlannedFrom doc r)
      (hcomponent : Component doc typeName schema)
      (hrun : (Generation.register doc typeName schema).run r = (.ok (), r')) : PlannedFrom doc r'
  | plan {r r' : Registry} {schema : Schema} {plan : Plan} (h : PlannedFrom doc r)
      (hrun : (Generation.plan doc schema).run r = (.ok plan, r')) : PlannedFrom doc r'

/-- Every type has the translation of its component schema for a plan. -/
def Registry.Mirrors (doc : Document) (r : Registry) : Prop :=
  ∀ typeName ∈ r.typeNames, ∃ schema plan, Component doc typeName schema ∧
    r.plan? typeName = some plan ∧ Translates doc schema plan

section Sessions

variable {doc : Document} {r r' : Registry} {typeName : String} {schema : Schema} {plan : Plan}

/-- The type that a reference leads to has the translation of the component for a plan. -/
theorem Registry.Mirrors.plan?_of_resolve (h : r.Mirrors doc) {reference : String}
    {target : Schema} (hresolve : doc.resolve reference = .ok (typeName, target))
    (hmem : typeName ∈ r.typeNames) :
    ∃ own, r.plan? typeName = some own ∧ Translates doc target own := by
  obtain ⟨component, own, hcomponent, hplan, hown⟩ := h typeName hmem
  rw [Component, Document.schema?_of_resolve hresolve] at hcomponent
  cases hcomponent
  exact ⟨own, hplan, hown⟩

theorem Registry.Mirrors.translates_of_resolve (h : r.Mirrors doc) {reference : String}
    {target : Schema} (hresolve : doc.resolve reference = .ok (typeName, target))
    (hplan : r.plan? typeName = some plan) : Translates doc target plan := by
  obtain ⟨own, hown, htranslates⟩ :=
    h.plan?_of_resolve hresolve (Registry.mem_typeNames_of_plan? hplan)
  rw [hplan] at hown
  cases hown
  exact htranslates

/-- A registry still mirrors the components after a walk that has planned all that it found. -/
theorem Registry.Mirrors.register {found : List (String × Option Plan)} (h : r.Mirrors doc)
    (hfound : Discovers doc (Component doc) r.typeNames found)
    (hall : ∀ entry ∈ found, entry.2.isSome) : (r.register found).Mirrors doc := by
  intro typeName hmem
  rw [typeNames_register hfound, List.mem_append] at hmem
  rcases hmem with hold | hnew
  · obtain ⟨schema, plan, hcomponent, hplan, htranslates⟩ := h typeName hold
    exact ⟨schema, plan, hcomponent, (extends_register hfound).some_plan? hplan, htranslates⟩
  · obtain ⟨⟨name, own⟩, hentry, rfl⟩ := List.mem_map.1 hnew
    obtain ⟨plan, rfl⟩ := Option.isSome_iff_exists.1 (hall _ hentry)
    obtain ⟨schema, hcomponent, htranslates, _⟩ := hfound.planned name plan hentry
    exact ⟨schema, plan, hcomponent, plan?_register_of_found hfound hentry, htranslates⟩

theorem mirrors_of_register (h : r.Mirrors doc) (hcomponent : Component doc typeName schema)
    (hrun : (Generation.register doc typeName schema).run r = (.ok (), r')) : r'.Mirrors doc := by
  unfold Generation.register at hrun
  rw [Generation.run_absorb] at hrun
  injection hrun with hresult hr'
  rw [← hr']
  exact h.register (planType_discovers doc r.typeNames typeName schema hcomponent fun _ _ h => h)
    (isSome_of_planType hresult)

/-- What planning a schema returns, and what it leaves. -/
theorem plan_ok (h : r.Mirrors doc)
    (hrun : (Generation.plan doc schema).run r = (.ok plan, r')) :
    Translates doc schema plan ∧ r'.Knows plan ∧ r'.Mirrors doc := by
  unfold Generation.plan at hrun
  rw [Generation.run_absorb] at hrun
  injection hrun with hresult hr'
  have hmeets := planSchema_meets doc r.typeNames schema
  obtain ⟨⟨htranslates, hnames⟩, hall⟩ := hmeets.result plan hresult
  rw [← hr']
  have hknows : (r.register (planSchema doc r.typeNames schema).found).Knows plan := by
    refine Plan.Within.mono hnames id fun name hname => ?_
    rw [Registry.typeNames_register hmeets.discovers, List.mem_append]
    exact hname
  exact ⟨htranslates, hknows, h.register hmeets.discovers hall⟩

theorem Registry.PlannedFrom.sound (h : r.PlannedFrom doc) : r.Sound := by
  induction h with
  | empty => exact sound_empty
  | @register r r' typeName schema _ _ hrun ih =>
      have hkeeps := register_keepsSound doc typeName schema r
      rw [hrun] at hkeeps
      exact hkeeps ih
  | @plan r r' schema plan _ hrun ih =>
      have hkeeps := plan_keepsSound doc schema r
      rw [hrun] at hkeeps
      exact hkeeps ih

theorem Registry.PlannedFrom.mirrors (h : r.PlannedFrom doc) : r.Mirrors doc := by
  induction h with
  | empty =>
      intro typeName hmem
      cases hmem
  | register _ hcomponent hrun ih => exact mirrors_of_register ih hcomponent hrun
  | plan _ hrun ih => exact (plan_ok ih hrun).2.2

end Sessions

/-! ## One direction and the other -/

section Directions

variable {doc : Document} {r : Registry} {schema : Schema} {plan : Plan} {path : List Access}
  {nullable : Bool}

/-- A path that leads from a schema to a date leads from its plan to one. -/
theorem dateAt_plan (hmirrors : r.Mirrors doc) (hsound : r.Sound)
    (h : schema.DateAt doc path nullable) (htranslates : Translates doc schema plan)
    (hknows : r.Knows plan) : plan.DateAt r path nullable := by
  induction h generalizing plan with
  | here hopen hobject hformat =>
      rw [htranslates.of_date hopen hobject hformat]
      exact .here
  | reference hreference hresolve _ ih =>
      obtain ⟨name, target, hresolved, rfl⟩ := htranslates.of_reference hreference
      rw [hresolve] at hresolved
      cases hresolved
      cases hknows with
      | delegate hmem =>
          obtain ⟨own, hplan, hown⟩ := hmirrors.plan?_of_resolve hresolve hmem
          exact .delegate hplan (ih hown (hsound.knows _ _ hplan))
  | union hreference hother _ ih =>
      obtain ⟨bare, hbare, rfl⟩ := htranslates.of_unwrapNullable hreference hother
      rw [isNullable_of_unwrapNullable hother, Bool.true_and]
      exact (ih hbare hknows.of_orNull).orNull
  | item hplain htype hitems _ ih =>
      obtain ⟨item, hitem, rfl⟩ := htranslates.of_array hplain htype hitems
      cases hknows with
      | array hknows => exact .item (ih hitem hknows)
  | entry hopen hobject hvalues _ ih =>
      obtain ⟨values, hplan, rfl⟩ := htranslates.of_map hopen hobject hvalues
      cases hknows with
      | map hknows => exact .entry (ih hplan hknows)
  | property hopen hobject hproperties hmem _ ih =>
      obtain ⟨plans, hplans, rfl⟩ := htranslates.of_object hopen hobject hproperties
      obtain ⟨own, hown, hplan⟩ := hplans.of_mem hmem
      cases hknows with
      | object hknows => exact .property hown (ih hplan (hknows _ hown))

/-- A path that leads from a plan to a date leads from the schema to one. -/
theorem dateAt_schema (hmirrors : r.Mirrors doc) (h : plan.DateAt r path nullable)
    (htranslates : Translates doc schema plan) : schema.DateAt doc path nullable := by
  induction h generalizing schema with
  | here =>
      obtain ⟨bare, wrapped, own, hunwraps, hshapes, heq⟩ := htranslates.unwrap
      cases hshapes with
      | @date k hopen hobject hformat =>
          injection heq with hnullable
          have hdate : (Schema.object k).DateAt doc [] k.isNullable :=
            .here hopen hobject hformat
          simpa [hnullable] using hunwraps.dateAt hdate
      | _ => cases heq
  | delegate hplan _ ih =>
      obtain ⟨bare, wrapped, own, hunwraps, hshapes, heq⟩ := htranslates.unwrap
      cases hshapes with
      | reference hreference hresolve =>
          injection heq with hname hnullable
          subst hname
          have hown := hmirrors.translates_of_resolve hresolve hplan
          have hdate := hunwraps.dateAt (Schema.DateAt.reference hreference hresolve (ih hown))
          rw [hnullable, Bool.and_or_distrib_right, ← Bool.or_assoc]
          exact hdate
      | _ => cases heq
  | item h ih =>
      obtain ⟨bare, wrapped, own, hunwraps, hshapes, heq⟩ := htranslates.unwrap
      cases hshapes with
      | array hplain htype hitems hitem =>
          injection heq with hitemEq
          subst hitemEq
          simpa using hunwraps.dateAt (Schema.DateAt.item hplain htype hitems (ih hitem))
      | bareArray =>
          injection heq with hitemEq
          subst hitemEq
          cases h
      | _ => cases heq
  | entry _ ih =>
      obtain ⟨bare, wrapped, own, hunwraps, hshapes, heq⟩ := htranslates.unwrap
      cases hshapes with
      | map hopen hobject _ hvalues hplan =>
          injection heq with hplanEq
          subst hplanEq
          simpa using hunwraps.dateAt (Schema.DateAt.entry hopen hobject hvalues (ih hplan))
      | _ => cases heq
  | property hmem _ ih =>
      obtain ⟨bare, wrapped, own, hunwraps, hshapes, heq⟩ := htranslates.unwrap
      cases hshapes with
      | object hopen hobject hproperties _ hplans =>
          injection heq with hplansEq
          subst hplansEq
          obtain ⟨source, hsource, hplan⟩ := hplans.of_mem_plans hmem
          have hdate := Schema.DateAt.property hopen hobject hproperties hsource (ih hplan)
          simpa using hunwraps.dateAt hdate
      | _ => cases heq

/-- In a registry that a session of planning has left, a path leads from the plan of a schema to a
date exactly if it leads from the schema to one, and then both say the same of null there. -/
theorem dateAt_plan_iff {r' : Registry} (hplanned : r.PlannedFrom doc)
    (hrun : (Generation.plan doc schema).run r = (.ok plan, r')) (path : List Access)
    (nullable : Bool) : plan.DateAt r' path nullable ↔ schema.DateAt doc path nullable := by
  obtain ⟨htranslates, hknows, hmirrors⟩ := plan_ok hplanned.mirrors hrun
  have hsound : r'.Sound := (hplanned.plan hrun).sound
  constructor
  · exact fun hdate => dateAt_schema hmirrors hdate htranslates
  · exact fun hdate => dateAt_plan hmirrors hsound hdate htranslates hknows

end Directions

/-! ## A list without end -/

/-- Keywords that say nothing. -/
def OpenApi.Keywords.bare {σ : Type} : Keywords σ :=
  ⟨none, none, none, none, none, none, none, none⟩

/-- A reference to a component. -/
def OpenApi.Schema.referring (name : String) : Schema :=
  .object { Keywords.bare with reference := some (componentRoot ++ name) }

/-- A date-time string. -/
def OpenApi.Schema.dateTime : Schema :=
  .object { Keywords.bare with format := some "date-time" }

/-- Null alone. -/
def OpenApi.Schema.nothing : Schema :=
  .object { Keywords.bare with type := some (.one "null") }

/-- The link of an entry to the next, or null. -/
def chainedLink : Schema :=
  .object { Keywords.bare with anyOf := some [.nothing, .referring "Entry"] }

/-- An entry: a date, and a link to the next entry. -/
def chainedEntry (nullable : Bool) : Schema :=
  .object { Keywords.bare with
    properties := some [("next", chainedLink), ("at", .dateTime)]
    nullable := some nullable }

/-- The operation that answers with the latest entry. -/
def latestEntry : Operation :=
  ⟨some "latestEntry", .ofList [("200", ⟨none, some (.ofList
    [("application/json", ⟨some (.referring "Entry")⟩)])⟩)]⟩

/-- The document of entries. `nullable` says that null may stand in the place of every entry. -/
def chained (nullable : Bool) : Document :=
  ⟨.ofList [("/entries", ⟨some latestEntry, none, none, none, none⟩)],
    some ⟨some (.ofList [("Entry", chainedEntry nullable)])⟩⟩

/-- The plan of an entry. -/
def chainedPlan (nullable : Bool) : Plan :=
  .object [("next", .delegate "Entry" true), ("at", .date false)] nullable

theorem resolve_chained (nullable : Bool) :
    (chained nullable).resolve (componentRoot ++ "Entry")
      = .ok ("Entry", chainedEntry nullable) := by
  have hname : referencedName? (componentRoot ++ "Entry") = some "Entry" := by decide +kernel
  have hentry : (chained nullable).schema? "Entry" = some (chainedEntry nullable) := rfl
  simp [Document.resolve, hname, hentry]

theorem planSchema_chained (nullable : Bool) :
    planSchema (chained nullable) [] (.referring "Entry")
      = ⟨[("Entry", some (chainedPlan nullable))], .ok (.delegate "Entry" false)⟩ := by
  simp [planSchema_object, planProperties, Schema.referring, resolve_chained, chainedEntry,
    chainedLink, Schema.dateTime, Schema.nothing, chainedPlan, Keywords.bare, Keywords.isNullable,
    Keywords.unwrapNullable, Schema.isNullType, Keywords.primaryType, Keywords.isObject,
    Keywords.mapValues, Planned.done, Planned.map, Except.map, Except.toOption, Planned.names,
    Plan.orNull]

theorem plan_chained (nullable : Bool) :
    (Generation.plan (chained nullable) (.referring "Entry")).run .empty
      = (.ok (.delegate "Entry" false),
        Registry.empty.register [("Entry", some (chainedPlan nullable))]) := by
  have hnames : Registry.empty.typeNames = [] := rfl
  unfold Generation.plan
  rw [Generation.run_absorb, hnames, planSchema_chained]

theorem isOpen_of_untyped {k : Keywords Schema} (hplain : IsPlain k) (htype : k.type = none) :
    IsOpen k := by
  have hprimary : k.primaryType = none := by rw [Keywords.primaryType, htype]
  refine ⟨hplain, ?_, ?_⟩
  · simp [hprimary]
  · simp [IsScalar, hprimary]

theorem dateAt_entry {step : Access} {path : List Access} {nullable : Bool}
    (h : (chainedEntry false).DateAt (chained false) (step :: path) nullable) :
    (Schema.referring "Entry").DateAt (chained false) (step :: path) nullable := by
  have hdate : (Schema.referring "Entry").DateAt (chained false) (step :: path)
      (nullable || false) := .reference rfl (resolve_chained false) h
  rw [Bool.or_false] at hdate
  exact hdate

theorem dateAt_chainedEntry :
    (chainedEntry false).DateAt (chained false) [.property "next", .property "at"] false := by
  have hopen : IsOpen { Keywords.bare with format := some "date-time" } :=
    isOpen_of_untyped ⟨rfl, rfl, rfl⟩ rfl
  have hat : (chainedEntry false).DateAt (chained false) [.property "at"] false :=
    .property (isOpen_of_untyped ⟨rfl, rfl, rfl⟩ rfl) rfl rfl
      (List.mem_cons_of_mem _ List.mem_cons_self) (.here hopen rfl rfl)
  have hlink : chainedLink.DateAt (chained false) [.property "at"] false :=
    .union rfl rfl (dateAt_entry hat)
  exact .property (isOpen_of_untyped ⟨rfl, rfl, rfl⟩ rfl) rfl rfl List.mem_cons_self hlink

/-- The date of the second entry: the link to it may be null, the date may not. -/
theorem dateAt_plan_chained : ∃ plan r',
    (Generation.plan (chained false) (.referring "Entry")).run .empty = (.ok plan, r') ∧
      plan.DateAt r' [.property "next", .property "at"] false :=
  ⟨_, _, plan_chained false,
    (dateAt_plan_iff .empty (plan_chained false) _ _).2 (dateAt_entry dateAt_chainedEntry)⟩

end DateReviver
