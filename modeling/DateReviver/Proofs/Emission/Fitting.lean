import DateReviver.Proofs.Emission.Alias
import DateReviver.Proofs.Planning.Positions
import DateReviver.Proofs.TypeScript.Value

/-!
# Values that fit a plan

A value fits a plan if it is built as the plan says, with null only where the plan or a delegation
to it allows null, and with all properties but those that may be missing. What should become of such a value is said by the paths that lead from the plan
to a date: the text at the end of each becomes a date, and nothing else changes.
-/

namespace DateReviver

open DateReviver.TypeScript

/-- Whether null may stand in the place of a value. -/
def Plan.admitsNull : Plan → Bool
  | .primitive => false
  | .date nullable | .delegate _ nullable | .array _ nullable | .map _ nullable
  | .object _ nullable => nullable

/-- A value fits a plan. `missing` says which properties of an object may be missing. -/
inductive Fits (r : Registry) (missing : String × Plan → Prop) : Plan → Value → Prop
  | primitive {value : Value} : Fits r missing .primitive value
  | null {plan : Plan} (hnull : plan.admitsNull = true) : Fits r missing plan .null
  | date {nullable : Bool} {source : String} : Fits r missing (.date nullable) (.text source)
  | delegate {typeName : String} {nullable : Bool} {plan : Plan} {value : Value}
      (hplan : r.plan? typeName = some plan) (h : Fits r missing plan value) :
      Fits r missing (.delegate typeName nullable) value
  | array {item : Plan} {nullable : Bool} {items : List Value}
      (h : ∀ value ∈ items, Fits r missing item value) :
      Fits r missing (.array item nullable) (.array items)
  | map {values : Plan} {nullable : Bool} {fields : List (String × Value)}
      (hnodup : (fields.map Prod.fst).Nodup)
      (h : ∀ field ∈ fields, Fits r missing values field.2) :
      Fits r missing (.map values nullable) (.object fields)
  | object {properties : List (String × Plan)} {nullable : Bool}
      {fields : List (String × Value)} (hnodup : (fields.map Prod.fst).Nodup)
      (hmissing : ∀ property ∈ properties, fields.lookup property.1 = none → missing property)
      (h : ∀ property ∈ properties, ∀ value, fields.lookup property.1 = some value →
        Fits r missing property.2 value) :
      Fits r missing (.object properties nullable) (.object fields)

/-- Which properties may be missing from what a run converts: none where all are to be there, and
otherwise those that hold no dates and those under whose names objects inherit nothing. -/
def Registry.MayLack (r : Registry) (allPresent : Bool) (property : String × Plan) : Prop :=
  allPresent = false ∧ (property.1 ∈ inheritedNames → ¬ r.HoldsDate property.2)

/-- The properties of objects in a plan have distinct names. -/
inductive Plan.Tidy : Plan → Prop
  | primitive : Tidy .primitive
  | date {nullable : Bool} : Tidy (.date nullable)
  | delegate {typeName : String} {nullable : Bool} : Tidy (.delegate typeName nullable)
  | array {item : Plan} {nullable : Bool} (h : Tidy item) : Tidy (.array item nullable)
  | map {values : Plan} {nullable : Bool} (h : Tidy values) : Tidy (.map values nullable)
  | object {properties : List (String × Plan)} {nullable : Bool}
      (hnodup : (properties.map Prod.fst).Nodup) (h : ∀ property ∈ properties, Tidy property.2) :
      Tidy (.object properties nullable)

/-! ## Where dates are -/

/-- The paths that lead from a plan to a date. -/
def Registry.Dates (r : Registry) (plan : Plan) (path : List Access) : Prop :=
  ∃ nullable, plan.DateAt r path nullable

namespace Registry

variable {r : Registry} {plan : Plan} {path : List Access} {nullable : Bool} {typeName : String}

theorem Dates.holdsDate (h : r.Dates plan path) : r.HoldsDate plan := by
  obtain ⟨nullable, h⟩ := h
  induction h with
  | here => exact holdsDate_date
  | delegate hplan _ ih => exact ih.of_step (.unfold hplan)
  | item _ ih => exact ih.of_step .item
  | entry _ ih => exact ih.of_step .value
  | property hmem _ ih => exact ih.of_step (.property hmem)

/-- Wherever a date is reached, a path leads to it. -/
theorem HoldsDate.exists_dates (h : r.HoldsDate plan) : ∃ path, r.Dates plan path := by
  obtain ⟨nullable, hreach⟩ := h
  induction hreach using Relation.ReflTransGen.head_induction_on with
  | refl => exact ⟨[], nullable, .here⟩
  | head hstep _ ih =>
      obtain ⟨path, inner, hpath⟩ := ih
      cases hstep with
      | item => exact ⟨_, _, .item hpath⟩
      | value => exact ⟨_, _, .entry hpath⟩
      | property hmem => exact ⟨_, _, .property hmem hpath⟩
      | unfold hplan => exact ⟨_, _, .delegate hplan hpath⟩

theorem dates_date : r.Dates (.date nullable) path ↔ path = [] := by
  constructor
  · rintro ⟨_, h⟩
    cases h
    rfl
  · rintro rfl
    exact ⟨nullable, .here⟩

theorem dates_delegate (hplan : r.plan? typeName = some plan) :
    r.Dates (.delegate typeName nullable) = r.Dates plan := by
  funext path
  refine propext ⟨?_, fun ⟨inner, h⟩ => ⟨_, .delegate hplan h⟩⟩
  rintro ⟨_, h⟩
  cases h with
  | delegate hplan' h =>
      rw [hplan] at hplan'
      cases hplan'
      exact ⟨_, h⟩

theorem dates_array {item : Plan} :
    (fun path => r.Dates (.array item nullable) (.item :: path)) = r.Dates item := by
  funext path
  refine propext ⟨?_, fun ⟨inner, h⟩ => ⟨inner, .item h⟩⟩
  rintro ⟨inner, h⟩
  cases h with
  | item h => exact ⟨inner, h⟩

/-- Into an object that is a map, every path begins with a step to an entry. -/
theorem dates_map {values : Plan} (name : String) :
    (fun path => r.Dates (.map values nullable) (.property name :: path) ∨
      r.Dates (.map values nullable) (.entry :: path)) = r.Dates values := by
  funext path
  refine propext ⟨?_, fun ⟨inner, h⟩ => .inr ⟨inner, .entry h⟩⟩
  rintro (⟨inner, h⟩ | ⟨inner, h⟩)
  · cases h
  · cases h with
    | entry h => exact ⟨inner, h⟩

/-- The paths from properties that begin at a name. -/
def DatesUnder (r : Registry) (properties : List (String × Plan)) (name : String)
    (path : List Access) : Prop :=
  ∃ plan, (name, plan) ∈ properties ∧ r.Dates plan path

/-- Into any other object, every path begins with a step to a property. -/
theorem dates_object {properties : List (String × Plan)} (name : String) :
    (fun path => r.Dates (.object properties nullable) (.property name :: path) ∨
      r.Dates (.object properties nullable) (.entry :: path)) = r.DatesUnder properties name := by
  funext path
  refine propext ⟨?_, fun ⟨plan, hmem, inner, h⟩ => .inl ⟨inner, .property hmem h⟩⟩
  rintro (⟨inner, h⟩ | ⟨inner, h⟩)
  · cases h with
    | property hmem h => exact ⟨_, hmem, inner, h⟩
  · cases h

/-- Another name of date-time strings leads to a date at once and nowhere else. -/
theorem AliasChain.dates {chain : List String} (h : AliasChain r typeName chain) :
    r.Dates (.delegate typeName nullable) path ↔ path = [] := by
  induction h generalizing nullable with
  | date hplan =>
      rw [dates_delegate hplan]
      exact dates_date
  | delegate hplan _ ih =>
      rw [dates_delegate hplan]
      exact ih

theorem aliasWithin_of_nullable {steps : Nat} {inner : Bool}
    (h : r.aliasWithin steps true typeName = some inner) : inner = true := by
  induction steps generalizing typeName with
  | zero => cases h
  | succ steps ih =>
      rw [aliasWithin] at h
      split at h
      · cases h
        rfl
      · exact ih h
      · cases h

/-- A value of another name of date-time strings is a text or, where that name allows it, null. -/
theorem aliasWithin_fits {steps : Nat} {inner : Bool} {missing : String × Plan → Prop}
    {value : Value} (h : r.aliasWithin steps nullable typeName = some inner)
    (hplan : r.plan? typeName = some plan) (hfits : Fits r missing plan value) :
    (∃ source, value = .text source) ∨ (value = .null ∧ inner = true) := by
  induction steps generalizing nullable typeName plan with
  | zero => cases h
  | succ steps ih =>
      rw [aliasWithin, hplan] at h
      split at h
      · rename_i own heq
        cases heq
        cases h
        cases hfits with
        | date => exact .inl ⟨_, rfl⟩
        | null hnull => exact .inr ⟨rfl, by rw [show own = true from hnull, Bool.or_true]⟩
      · rename_i target own heq
        cases heq
        cases hfits with
        | delegate hplan hfits => exact ih h hplan hfits
        | null hnull =>
            rw [show own = true from hnull, Bool.or_true] at h
            exact .inr ⟨rfl, aliasWithin_of_nullable h⟩
      · cases h

end Registry

/-! ## What becomes of a value -/

namespace TypeScript.Value

open Classical in
mutual

/-- A value in which the texts at the ends of paths are dates. -/
noncomputable def revive (dates : List Access → Prop) (value : Value) : Value :=
  match value with
  | .text source => if dates [] then .date (.text source) else .text source
  | .array items => .array (reviveItems (fun path => dates (.item :: path)) items)
  | .object fields => .object (reviveFields dates fields)
  | value => value

/-- Items in which the texts at the ends of paths are dates. -/
noncomputable def reviveItems (dates : List Access → Prop) (items : List Value) : List Value :=
  match items with
  | [] => []
  | value :: rest => revive dates value :: reviveItems dates rest

/-- Fields in which the texts at the ends of paths are dates. A path enters a field by its name, or
as an entry. -/
noncomputable def reviveFields (dates : List Access → Prop) (fields : List (String × Value)) :
    List (String × Value) :=
  match fields with
  | [] => []
  | (name, value) :: rest =>
      (name, revive (fun path => dates (.property name :: path) ∨ dates (.entry :: path)) value)
        :: reviveFields dates rest

end

variable {dates : List Access → Prop}

theorem reviveItems_eq_map (items : List Value) :
    reviveItems dates items = items.map (revive dates) := by
  induction items with
  | nil => rfl
  | cons value rest ih =>
      rw [List.map_cons, ← ih]
      rfl

theorem reviveFields_eq_map (fields : List (String × Value)) :
    reviveFields dates fields = fields.map fun field =>
      (field.1, field.2.revive fun path =>
        dates (.property field.1 :: path) ∨ dates (.entry :: path)) := by
  induction fields with
  | nil => rfl
  | cons field rest ih =>
      rw [List.map_cons, ← ih]
      rfl

/-- The items of an array become what they are to be one by one. -/
theorem revive_items (items : List Value) : (Value.array items).revive dates =
    .array (items.map (revive fun path => dates (.item :: path))) :=
  congrArg Value.array (reviveItems_eq_map items)

/-- So do the fields of an object. -/
theorem revive_fields (fields : List (String × Value)) : (Value.object fields).revive dates =
    .object (fields.map fun field => (field.1, field.2.revive fun path =>
      dates (.property field.1 :: path) ∨ dates (.entry :: path))) :=
  congrArg Value.object (reviveFields_eq_map fields)

mutual

theorem revive_of_dateless {dates : List Access → Prop} (h : ∀ path, ¬ dates path)
    (value : Value) :
    value.revive dates = value := by
  cases value with
  | text source => exact if_neg (h [])
  | array items =>
      have hitems (path : List Access) : ¬ dates (.item :: path) := h _
      exact congrArg Value.array (reviveItems_of_dateless hitems items)
  | object fields => exact congrArg Value.object (reviveFields_of_dateless h fields)
  | undefined | null | boolean | number | date | inherited | ancestor => rfl

theorem reviveItems_of_dateless {dates : List Access → Prop} (h : ∀ path, ¬ dates path)
    (items : List Value) :
    reviveItems dates items = items := by
  cases items with
  | nil => rfl
  | cons value rest =>
      exact congrArg₂ List.cons (revive_of_dateless h value) (reviveItems_of_dateless h rest)

theorem reviveFields_of_dateless {dates : List Access → Prop} (h : ∀ path, ¬ dates path)
    (fields : List (String × Value)) :
    reviveFields dates fields = fields := by
  cases fields with
  | nil => rfl
  | cons field rest =>
      have hfield (path : List Access) :
          ¬ (dates (.property field.1 :: path) ∨ dates (.entry :: path)) :=
        not_or.2 ⟨h _, h _⟩
      have hvalue := revive_of_dateless hfield field.2
      exact congrArg₂ List.cons (congrArg (Prod.mk field.1) hvalue)
        (reviveFields_of_dateless h rest)

end

section Plans

variable {r : Registry} {nullable : Bool}

theorem revive_null : Value.null.revive dates = .null :=
  rfl

theorem revive_text (h : ∀ path, dates path ↔ path = []) (source : String) :
    (Value.text source).revive dates = .date (.text source) :=
  if_pos ((h []).2 rfl)

theorem revive_array {item : Plan} (items : List Value) :
    (Value.array items).revive (r.Dates (.array item nullable))
      = .array (items.map (revive (r.Dates item))) := by
  rw [revive_items, Registry.dates_array]

theorem revive_map {values : Plan} (fields : List (String × Value)) :
    (Value.object fields).revive (r.Dates (.map values nullable))
      = .object (fields.map fun field => (field.1, field.2.revive (r.Dates values))) := by
  simp only [revive_fields, Registry.dates_map]

theorem revive_object {properties : List (String × Plan)} (fields : List (String × Value)) :
    (Value.object fields).revive (r.Dates (.object properties nullable))
      = .object (fields.map fun field =>
          (field.1, field.2.revive (r.DatesUnder properties field.1))) := by
  simp only [revive_fields, Registry.dates_object]

end Plans

end TypeScript.Value

/-! ## Where a run stumbles -/

/-- Carrying out a plan on a value comes to null where an object is expected and no guard stands:
where a function is given the object itself. `nested` says that the value is inside of the one that
the function is given. -/
inductive Stumbles (r : Registry) : (nested : Bool) → Plan → Value → Prop
  | object {properties : List (String × Plan)} {nullable : Bool}
      (hdate : r.HoldsDate (.object properties nullable)) :
      Stumbles r false (.object properties nullable) .null
  | delegate {nested nullable : Bool} {typeName : String} {plan : Plan} {value : Value}
      (hplan : r.plan? typeName = some plan) (hcalled : nullable = false ∨ value ≠ .null)
      (h : Stumbles r false plan value) : Stumbles r nested (.delegate typeName nullable) value
  | item {nested nullable : Bool} {item : Plan} {items : List Value} {value : Value}
      (hmem : value ∈ items) (h : Stumbles r true item value) :
      Stumbles r nested (.array item nullable) (.array items)
  | entry {nested nullable : Bool} {values : Plan} {fields : List (String × Value)}
      {field : String × Value} (hmem : field ∈ fields) (h : Stumbles r true values field.2) :
      Stumbles r nested (.map values nullable) (.object fields)
  | property {nested nullable : Bool} {properties : List (String × Plan)}
      {property : String × Plan} {fields : List (String × Value)} {value : Value}
      (hmem : property ∈ properties) (hvalue : fields.lookup property.1 = some value)
      (h : Stumbles r true property.2 value) :
      Stumbles r nested (.object properties nullable) (.object fields)

section Stumbles

variable {r : Registry} {nested : Bool} {plan : Plan} {value : Value}

theorem Stumbles.holdsDate (h : Stumbles r nested plan value) : r.HoldsDate plan := by
  induction h with
  | object hdate => exact hdate
  | delegate hplan _ _ ih => exact ih.of_step (.unfold hplan)
  | item _ _ ih => exact ih.of_step .item
  | entry _ _ ih => exact ih.of_step .value
  | property hmem _ _ ih => exact ih.of_step (.property hmem)

theorem not_stumbles_date {nullable : Bool} : ¬ Stumbles r nested (.date nullable) value :=
  fun h => by cases h

theorem stumbles_delegate_iff {typeName : String} {nullable : Bool}
    (hplan : r.plan? typeName = some plan) :
    Stumbles r nested (.delegate typeName nullable) value ↔
      (nullable = false ∨ value ≠ .null) ∧ Stumbles r false plan value := by
  refine ⟨fun h => ?_, fun ⟨hcalled, h⟩ => .delegate hplan hcalled h⟩
  cases h with
  | delegate hplan' hcalled h =>
      rw [hplan] at hplan'
      cases hplan'
      exact ⟨hcalled, h⟩

theorem stumbles_array_iff {item : Plan} {nullable : Bool} {items : List Value} :
    Stumbles r nested (.array item nullable) (.array items) ↔
      ∃ value ∈ items, Stumbles r true item value := by
  refine ⟨fun h => ?_, fun ⟨value, hmem, h⟩ => .item hmem h⟩
  cases h with
  | item hmem h => exact ⟨_, hmem, h⟩

theorem stumbles_map_iff {values : Plan} {nullable : Bool} {fields : List (String × Value)} :
    Stumbles r nested (.map values nullable) (.object fields) ↔
      ∃ field ∈ fields, Stumbles r true values field.2 := by
  refine ⟨fun h => ?_, fun ⟨field, hmem, h⟩ => .entry hmem h⟩
  cases h with
  | entry hmem h => exact ⟨_, hmem, h⟩

theorem stumbles_object_iff {properties : List (String × Plan)} {nullable : Bool}
    {fields : List (String × Value)} :
    Stumbles r nested (.object properties nullable) (.object fields) ↔
      ∃ property ∈ properties, ∃ value, fields.lookup property.1 = some value ∧
        Stumbles r true property.2 value := by
  refine ⟨fun h => ?_, fun ⟨property, hmem, value, hvalue, h⟩ => .property hmem hvalue h⟩
  cases h with
  | property hmem hvalue h => exact ⟨_, hmem, _, hvalue, h⟩

theorem Registry.AliasChain.not_stumbles {typeName : String} {nullable : Bool}
    {chain : List String} (h : r.AliasChain typeName chain) :
    ¬ Stumbles r nested (.delegate typeName nullable) value := by
  induction h generalizing nested nullable with
  | date hplan =>
      rw [stumbles_delegate_iff hplan]
      exact fun h => not_stumbles_date h.2
  | delegate hplan _ ih =>
      rw [stumbles_delegate_iff hplan]
      exact fun h => ih h.2

/-- A value from which dates are reached is not missing. -/
theorem Fits.ne_undefined {missing : String × Plan → Prop} (h : Fits r missing plan value)
    (hdate : r.HoldsDate plan) : value ≠ .undefined := by
  induction h with
  | primitive => exact absurd hdate Registry.not_holdsDate_primitive
  | delegate hplan _ ih => exact ih ((Registry.holdsDate_delegate_iff hplan).1 hdate)
  | null | date | array | map | object => exact fun h => by cases h

end Stumbles

end DateReviver
