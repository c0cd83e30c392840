import DateReviver.Proofs.Emission.Fitting
import DateReviver.Proofs.Emission.Functions
import DateReviver.Proofs.Generate
import DateReviver.Proofs.Planning.Parts

/-!
# Which types need functions

A type needs a function if there are dates inside of its values. This is a property of the document
alone, and the registry that planning leaves decides by it: there, the types that hold dates and are
no other names of date-time strings are those with a path of at least one step to a date.
-/

namespace DateReviver

open DateReviver.OpenApi

/-- A date can be reached from a schema. -/
def OpenApi.Schema.HoldsDate (doc : Document) (schema : Schema) : Prop :=
  ∃ path nullable, schema.DateAt doc path nullable

/-- A date can be reached from the component of a type. -/
def OpenApi.Document.HoldsDate (doc : Document) (typeName : String) : Prop :=
  ∃ schema, doc.schema? typeName = some schema ∧ schema.HoldsDate doc

/-- A date stands inside of the values of a type, and not in the place of such a value. -/
def OpenApi.Document.NeedsFunction (doc : Document) (typeName : String) : Prop :=
  ∃ schema path nullable, doc.schema? typeName = some schema ∧ schema.DateAt doc path nullable ∧
    path ≠ []

theorem OpenApi.Document.NeedsFunction.holdsDate {doc : Document} {typeName : String}
    (h : doc.NeedsFunction typeName) : doc.HoldsDate typeName := by
  obtain ⟨schema, path, nullable, hschema, hdate, _⟩ := h
  exact ⟨schema, hschema, path, nullable, hdate⟩

section Schemas

variable {doc : Document} {r : Registry} {schema : Schema} {plan : Plan} {typeName : String}

/-- A date can be reached from a schema exactly if one can be reached from its plan. -/
theorem Registry.Faithful.holdsDate_iff (h : r.Faithful doc) (htranslates : Translates doc schema plan)
    (hknows : r.Knows plan) : r.HoldsDate plan ↔ schema.HoldsDate doc := by
  constructor
  · intro hdate
    obtain ⟨path, nullable, hpath⟩ := hdate.exists_dates
    exact ⟨path, nullable, dateAt_schema h.mirrors hpath htranslates⟩
  · rintro ⟨path, nullable, hpath⟩
    exact Registry.Dates.holdsDate ⟨nullable, dateAt_plan h.mirrors h.sound hpath htranslates hknows⟩

/-- A registered type has the plan of its component. -/
theorem Registry.Faithful.component (h : r.Faithful doc) (hplan : r.plan? typeName = some plan) :
    ∃ schema, doc.schema? typeName = some schema ∧ Translates doc schema plan ∧ r.Knows plan := by
  obtain ⟨schema, own, hschema, hown, htranslates⟩ :=
    h.mirrors typeName (Registry.mem_typeNames_of_plan? hplan)
  rw [hplan, Option.some_inj] at hown
  subst hown
  exact ⟨schema, hschema, htranslates, h.sound.knows typeName plan hplan⟩

/-- A type in the place of whose values dates stand is another name of date-time strings. -/
theorem Registry.dateAlias?_of_dateAt {nullable : Bool} (hplan : r.plan? typeName = some plan)
    (h : plan.DateAt r [] nullable) : ∃ inner, r.dateAlias? typeName = some inner := by
  generalize hpath : ([] : List Access) = path at h
  induction h generalizing typeName with
  | here => exact dateAlias?_of_date hplan
  | delegate htarget _ ih =>
      obtain ⟨inner, hinner⟩ := ih htarget hpath
      exact dateAlias?_of_delegate hplan hinner
  | item | entry | property => cases hpath

theorem Registry.dateAlias?_eq_none_iff (hplan : r.plan? typeName = some plan)
    (hdate : r.HoldsDate plan) :
    r.dateAlias? typeName = none ↔ ∃ path, r.Dates plan path ∧ path ≠ [] := by
  constructor
  · intro hnone
    obtain ⟨path, nullable, hpath⟩ := hdate.exists_dates
    refine ⟨path, ⟨nullable, hpath⟩, ?_⟩
    rintro rfl
    obtain ⟨inner, hinner⟩ := dateAlias?_of_dateAt hplan hpath
    simp [hnone] at hinner
  · rintro ⟨path, hpath, hne⟩
    rcases halias : r.dateAlias? typeName with _ | inner
    · rfl
    · obtain ⟨chain, hchain⟩ := aliasChain_of_aliasWithin halias
      have hdelegate : r.Dates (.delegate typeName false) path := by
        rw [dates_delegate hplan]
        exact hpath
      exact absurd (hchain.dates.1 hdelegate) hne

/-- A registered type needs a function by its plan exactly if it needs one by its component. -/
theorem Registry.Faithful.needsFunction_iff (h : r.Faithful doc) (hmem : typeName ∈ r.typeNames) :
    (∃ own, r.NeedsFunction typeName own) ↔ doc.NeedsFunction typeName := by
  obtain ⟨schema, own, hschema, hown, htranslates⟩ := h.mirrors typeName hmem
  have hknows := h.sound.knows typeName own hown
  constructor
  · rintro ⟨found, hneeds⟩
    have hplan := hneeds.plan?
    rw [hown, Option.some_inj] at hplan
    subst hplan
    obtain ⟨path, ⟨nullable, hpath⟩, hne⟩ :=
      (Registry.dateAlias?_eq_none_iff hown hneeds.holdsDate).1 hneeds.notAlias
    exact ⟨schema, path, nullable, hschema, dateAt_schema h.mirrors hpath htranslates, hne⟩
  · rintro ⟨found, path, nullable, hfound, hpath, hne⟩
    rw [hschema, Option.some_inj] at hfound
    subst hfound
    have hdate : r.Dates own path := ⟨nullable, dateAt_plan h.mirrors h.sound hpath htranslates hknows⟩
    exact ⟨own, hown, hdate.holdsDate,
      (Registry.dateAlias?_eq_none_iff hown hdate.holdsDate).2 ⟨path, hdate, hne⟩⟩

end Schemas

end DateReviver
