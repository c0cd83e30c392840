import DateReviver.Registry
import Mathlib.Logic.Relation

/-!
# What a plan leads to

A plan leads to its parts, and a delegation leads to the plan of the type that it names. `Reaches`
is the closure of these steps over a registry, circles of types included. A plan that is confined
to a set of types, all of whose plans are confined to the same set, leads to nothing else: this is
how the absence of dates is shown without walking a circle for ever.
-/

namespace DateReviver

/-- Every date in a plan is admitted by `dates`, and every type that it names by `types`. What the
types lead to is not looked at. -/
inductive Plan.Within (dates : Prop) (types : String → Prop) : Plan → Prop
  | primitive : Within dates types .primitive
  | date {nullable : Bool} (h : dates) : Within dates types (.date nullable)
  | delegate {typeName : String} {nullable : Bool} (h : types typeName) :
      Within dates types (.delegate typeName nullable)
  | array {item : Plan} {nullable : Bool} (h : Within dates types item) :
      Within dates types (.array item nullable)
  | map {values : Plan} {nullable : Bool} (h : Within dates types values) :
      Within dates types (.map values nullable)
  | object {properties : List (String × Plan)} {nullable : Bool}
      (h : ∀ property ∈ properties, Within dates types property.2) :
      Within dates types (.object properties nullable)

theorem Plan.Within.mono {dates dates' : Prop} {types types' : String → Prop} {plan : Plan}
    (h : plan.Within dates types) (hdates : dates → dates')
    (htypes : ∀ typeName, types typeName → types' typeName) : plan.Within dates' types' := by
  induction h with
  | primitive => exact .primitive
  | date h => exact .date (hdates h)
  | delegate h => exact .delegate (htypes _ h)
  | array _ ih => exact .array ih
  | map _ ih => exact .map ih
  | object _ ih => exact .object ih

theorem Plan.Within.orNull {dates : Prop} {types : String → Prop} {plan : Plan}
    (h : plan.Within dates types) : plan.orNull.Within dates types := by
  cases h with
  | primitive => exact .primitive
  | date h => exact .date h
  | delegate h => exact .delegate h
  | array h => exact .array h
  | map h => exact .map h
  | object h => exact .object h

theorem Plan.Within.of_orNull {dates : Prop} {types : String → Prop} {plan : Plan}
    (h : plan.orNull.Within dates types) : plan.Within dates types := by
  cases plan with
  | primitive => exact .primitive
  | date | delegate | array | map | object =>
      cases h
      constructor
      assumption

namespace Registry

/-- A plan leads to its parts, and a delegation to the plan of its type. -/
inductive Step (r : Registry) : Plan → Plan → Prop
  | item {item : Plan} {nullable : Bool} : Step r (.array item nullable) item
  | value {values : Plan} {nullable : Bool} : Step r (.map values nullable) values
  | property {properties : List (String × Plan)} {nullable : Bool} {name : String} {plan : Plan}
      (h : (name, plan) ∈ properties) : Step r (.object properties nullable) plan
  | unfold {typeName : String} {nullable : Bool} {plan : Plan}
      (h : r.plan? typeName = some plan) : Step r (.delegate typeName nullable) plan

/-- The plans that a plan leads to in any number of steps. -/
abbrev Reaches (r : Registry) : Plan → Plan → Prop :=
  Relation.ReflTransGen r.Step

/-- A date can be reached from a plan. -/
def HoldsDate (r : Registry) (plan : Plan) : Prop :=
  ∃ nullable, r.Reaches plan (.date nullable)

/-- A type that is registered without a plan can be reached from a plan. -/
def MeetsUnplanned (r : Registry) (plan : Plan) : Prop :=
  ∃ typeName nullable, r.Reaches plan (.delegate typeName nullable) ∧
    typeName ∈ r.typeNames ∧ r.plan? typeName = none

/-- The types that a plan names are registered. -/
abbrev Knows (r : Registry) (plan : Plan) : Prop :=
  plan.Within True (· ∈ r.typeNames)

variable {r : Registry} {plan : Plan} {typeName : String} {nullable : Bool}

theorem HoldsDate.of_step {p q : Plan} (hstep : r.Step p q) (h : r.HoldsDate q) :
    r.HoldsDate p := by
  obtain ⟨nullable, hreach⟩ := h
  exact ⟨nullable, .head hstep hreach⟩

theorem holdsDate_date : r.HoldsDate (.date nullable) :=
  ⟨nullable, .refl⟩

theorem HoldsDate.of_delegate (h : r.HoldsDate (.delegate typeName nullable)) :
    ∃ plan, r.plan? typeName = some plan ∧ r.HoldsDate plan := by
  obtain ⟨inner, hreach⟩ := h
  rcases Relation.ReflTransGen.cases_head hreach with heq | ⟨q, hstep, hrest⟩
  · cases heq
  · cases hstep with
    | unfold hplan => exact ⟨q, hplan, inner, hrest⟩

/-- Whether a delegation holds a date does not depend on its null flag. -/
theorem holdsDate_delegate_iff (h : r.plan? typeName = some plan) :
    r.HoldsDate (.delegate typeName nullable) ↔ r.HoldsDate plan := by
  constructor
  · intro hdelegate
    obtain ⟨found, hfound, hdate⟩ := hdelegate.of_delegate
    rw [h, Option.some_inj] at hfound
    exact hfound ▸ hdate
  · exact fun hplan => hplan.of_step (.unfold h)

theorem not_holdsDate_primitive : ¬ r.HoldsDate .primitive := by
  rintro ⟨nullable, hreach⟩
  rcases Relation.ReflTransGen.cases_head hreach with heq | ⟨q, hstep, _⟩
  · cases heq
  · cases hstep

theorem holdsDate_array_iff {item : Plan} :
    r.HoldsDate (.array item nullable) ↔ r.HoldsDate item := by
  constructor
  · rintro ⟨inner, hreach⟩
    rcases Relation.ReflTransGen.cases_head hreach with heq | ⟨q, hstep, hrest⟩
    · cases heq
    · cases hstep
      exact ⟨inner, hrest⟩
  · exact fun h => h.of_step .item

theorem holdsDate_map_iff {values : Plan} :
    r.HoldsDate (.map values nullable) ↔ r.HoldsDate values := by
  constructor
  · rintro ⟨inner, hreach⟩
    rcases Relation.ReflTransGen.cases_head hreach with heq | ⟨q, hstep, hrest⟩
    · cases heq
    · cases hstep
      exact ⟨inner, hrest⟩
  · exact fun h => h.of_step .value

theorem holdsDate_object_iff {properties : List (String × Plan)} :
    r.HoldsDate (.object properties nullable) ↔
      ∃ property ∈ properties, r.HoldsDate property.2 := by
  constructor
  · rintro ⟨inner, hreach⟩
    rcases Relation.ReflTransGen.cases_head hreach with heq | ⟨q, hstep, hrest⟩
    · cases heq
    · cases hstep with
      | property hmem => exact ⟨_, hmem, inner, hrest⟩
  · rintro ⟨⟨name, plan⟩, hmem, hplan⟩
    exact hplan.of_step (.property hmem)

theorem holdsDate_orNull : r.HoldsDate plan.orNull ↔ r.HoldsDate plan := by
  cases plan with
  | primitive => rfl
  | date => exact iff_of_true holdsDate_date holdsDate_date
  | delegate =>
      constructor
      all_goals
        intro h
        obtain ⟨own, hplan, hdate⟩ := h.of_delegate
        exact (holdsDate_delegate_iff hplan).2 hdate
  | array => exact holdsDate_array_iff.trans holdsDate_array_iff.symm
  | map => exact holdsDate_map_iff.trans holdsDate_map_iff.symm
  | object => exact holdsDate_object_iff.trans holdsDate_object_iff.symm

end Registry

/-! ## Confinement -/

section Confinement

variable {r : Registry} {plan : Plan}

/-- A set of types, each with a plan that is confined to the set, is never left. -/
theorem Plan.Within.reaches {dates : Prop} {types : String → Prop} {p q : Plan}
    (hclosed : ∀ typeName plan, types typeName → r.plan? typeName = some plan →
      plan.Within dates types)
    (h : p.Within dates types) (hreach : r.Reaches p q) : q.Within dates types := by
  induction hreach with
  | refl => exact h
  | tail _ hstep ih =>
      cases hstep with
      | item => cases ih; assumption
      | value => cases ih; assumption
      | property hmem =>
          cases ih with
          | object hall => exact hall _ hmem
      | unfold hplan =>
          cases ih with
          | delegate htype => exact hclosed _ _ htype hplan

/-- Whatever is reached from a plan in a registry that knows its own types is known as well. -/
theorem Registry.knows_of_reaches {p q : Plan}
    (hclosed : ∀ typeName plan, r.plan? typeName = some plan → r.Knows plan)
    (h : r.Knows p) (hreach : r.Reaches p q) : r.Knows q :=
  Plan.Within.reaches (fun typeName plan _ => hclosed typeName plan) h hreach

section Dateless

variable {types : String → Prop}
  (hplanned : ∀ typeName, types typeName →
    ∃ plan, r.plan? typeName = some plan ∧ plan.Within False types)

include hplanned

theorem Plan.Within.dateless_reaches {p q : Plan} (h : p.Within False types)
    (hreach : r.Reaches p q) : q.Within False types := by
  refine Plan.Within.reaches ?_ h hreach
  intro typeName plan htype hplan
  obtain ⟨found, hfound, hwithin⟩ := hplanned typeName htype
  rw [hplan] at hfound
  cases hfound
  exact hwithin

theorem Plan.Within.not_holdsDate (h : plan.Within False types) : ¬ r.HoldsDate plan := by
  rintro ⟨nullable, hreach⟩
  cases Plan.Within.dateless_reaches hplanned h hreach with
  | date hfalse => exact hfalse

theorem Plan.Within.not_meetsUnplanned (h : plan.Within False types) :
    ¬ r.MeetsUnplanned plan := by
  rintro ⟨typeName, nullable, hreach, _, hnone⟩
  cases Plan.Within.dateless_reaches hplanned h hreach with
  | delegate htype =>
      obtain ⟨found, hfound, _⟩ := hplanned typeName htype
      rw [hnone] at hfound
      cases hfound

end Dateless

end Confinement

end DateReviver
