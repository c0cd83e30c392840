import DateReviver.Proofs.Planning.Equations
import DateReviver.Proofs.Planning.Following
import Mathlib.Data.List.Chain

/-!
# The types that are open when planning fails

Planning a type is under way until its schema is planned, and in between other types are planned. When
an error arises, the types whose planning is under way are open. Each was opened by a reference in the
schema of the one before it, and they alone are left without a plan: what was found beside them has
been planned to its end.
-/

namespace DateReviver

open DateReviver.OpenApi

mutual

/-- Planning a schema comes to an error. Listed are the types that are open at this moment, the
outermost first, each with its schema. -/
inductive Fails (doc : Document) :
    List String → Schema → GenerationError → List (String × Schema) → Prop
  | defect {known : List String} {schema : Schema} {e : GenerationError}
      (h : Walk.Defect doc ⟨[], [], [.schema schema]⟩ e) : Fails doc known schema e []
  | reference {known : List String} {k : Keywords Schema} {reference name : String} {target : Schema}
      {e : GenerationError} {opened : List (String × Schema)}
      (hreference : k.reference = some reference)
      (hresolve : doc.resolve reference = .ok (name, target)) (hnew : name ∉ known)
      (h : Fails doc (name :: known) target e opened) :
      Fails doc known (.object k) e ((name, target) :: opened)
  | inside {known : List String} {schema : Schema} {parts : List (List Access × Schema)}
      {e : GenerationError} {opened : List (String × Schema)} (hinside : schema.Inside parts)
      (h : FailsAmong doc known parts e opened) : Fails doc known schema e opened

/-- One of some schemas comes to an error, after those before it have been planned. -/
inductive FailsAmong (doc : Document) : List String → List (List Access × Schema) →
    GenerationError → List (String × Schema) → Prop
  | here {known : List String} {steps : List Access} {schema : Schema}
      {rest : List (List Access × Schema)} {e : GenerationError} {opened : List (String × Schema)}
      (h : Fails doc known schema e opened) :
      FailsAmong doc known ((steps, schema) :: rest) e opened
  | later {known : List String} {steps : List Access} {schema : Schema}
      {rest : List (List Access × Schema)} {own : Planned Plan} {plan : Plan} {e : GenerationError}
      {opened : List (String × Schema)} (h : Plans doc known schema own)
      (hresult : own.result = .ok plan) (hrest : FailsAmong doc (known ++ own.names) rest e opened) :
      FailsAmong doc known ((steps, schema) :: rest) e opened

end

/-- The types that were found and have no plan. -/
def unfinished (found : List (String × Option Plan)) : List String :=
  (found.filter fun entry => entry.2.isNone).map Prod.fst

/-- Each schema refers to the type after it, which stands there with its component. -/
def Linked (doc : Document) (opened : List (String × Schema)) : Prop :=
  opened.IsChain fun outer inner => outer.2.Refers inner.1 ∧ Component doc inner.1 inner.2

theorem unfinished_append (first second : List (String × Option Plan)) :
    unfinished (first ++ second) = unfinished first ++ unfinished second := by
  simp [unfinished]

theorem unfinished_eq_nil {found : List (String × Option Plan)}
    (h : ∀ entry ∈ found, entry.2.isSome) : unfinished found = [] := by
  unfold unfinished
  rw [List.map_eq_nil_iff, List.filter_eq_nil_iff]
  intro entry hmem hnone
  have hsome := h entry hmem
  simp_all

theorem map_eq_error_iff {α β : Type} {f : α → β} {result : Except GenerationError α}
    {e : GenerationError} : result.map f = .error e ↔ result = .error e := by
  cases result <;> simp [Except.map]

section Failing

variable {doc : Document}

/-! ## Every error has its open types -/

mutual

/-- The induction is on the course of planning. -/
theorem Plans.fails : {known : List String} → {schema : Schema} → {planned : Planned Plan} →
    Plans doc known schema planned → {e : GenerationError} → planned.result = .error e →
      ∃ opened, Fails doc known schema e opened
  | _, _, _, .unresolved hreference hresolve, _, herror => by
      cases herror
      exact ⟨[], .defect (.of_resolve hreference hresolve)⟩
  | _, _, _, .new hreference hresolve hnew h, _, herror => by
      obtain ⟨opened, hopened⟩ := h.fails (map_eq_error_iff.1 herror)
      exact ⟨_, .reference hreference hresolve hnew hopened⟩
  | _, _, _, .union hreference hother h, _, herror => by
      obtain ⟨opened, hopened⟩ := h.fails (map_eq_error_iff.1 herror)
      exact ⟨opened, .inside (.union hreference hother) (.here hopened)⟩
  | _, _, _, .array hplain htype hitems h, _, herror => by
      obtain ⟨opened, hopened⟩ := h.fails (map_eq_error_iff.1 herror)
      exact ⟨opened, .inside (.array hplain htype hitems) (.here hopened)⟩
  | _, _, _, .map hopen hobject hproperties hvalues h, _, herror => by
      obtain ⟨opened, hopened⟩ := h.fails (map_eq_error_iff.1 herror)
      exact ⟨opened, .inside (.map hopen hobject hproperties hvalues) (.here hopened)⟩
  | _, _, _, .object hopen hobject hproperties hvalues h, _, herror => by
      obtain ⟨opened, hopened⟩ := h.fails (map_eq_error_iff.1 herror)
      exact ⟨opened, .inside (.object hopen hobject hproperties hvalues) hopened⟩
  | _, _, _, .conflict hopen hobject hproperties hvalues, _, herror => by
      cases herror
      exact ⟨[], .defect (.conflictingObjectShape hopen hobject hproperties hvalues)⟩
  | _, _, _, .empty hopen hobject hproperties hvalues, _, herror => by
      cases herror
      exact ⟨[], .defect (.emptyObjectSchema hopen hobject hproperties hvalues)⟩
  | _, _, _, .boolean, _, herror | _, _, _, .known _ _ _, _, herror
  | _, _, _, .anyUnion _ _ _, _, herror | _, _, _, .bareArray _ _ _, _, herror
  | _, _, _, .scalar _ _, _, herror | _, _, _, .date _ _ _, _, herror
  | _, _, _, .text _ _ _, _, herror => nomatch herror

theorem PlansAll.fails : {known : List String} → {properties : List (String × Schema)} →
    {planned : Planned (List (String × Plan))} → PlansAll doc known properties planned →
      {e : GenerationError} → planned.result = .error e → ∃ opened,
        FailsAmong doc known
          (properties.map fun property => ([.property property.1], property.2)) e opened
  | _, _, _, .nil, _, herror => nomatch herror
  | _, _, _, .failed h hresult, _, herror => by
      cases herror
      obtain ⟨opened, hopened⟩ := h.fails hresult
      exact ⟨opened, .here hopened⟩
  | _, _, _, .cons h hresult hrest, _, herror => by
      obtain ⟨opened, hopened⟩ := hrest.fails (map_eq_error_iff.1 herror)
      exact ⟨opened, .later h hresult hopened⟩

end

/-! ## The open types are those without a plan -/

/-- What planning leaves when it comes to this error with these types open. -/
structure Planned.Leaves {α : Type} (e : GenerationError) (opened : List (String × Schema))
    (walk : Planned α) : Prop where
  result : walk.result = .error e
  unfinished : unfinished walk.found = opened.map Prod.fst

theorem Planned.Leaves.map {α β : Type} {e : GenerationError} {opened : List (String × Schema)}
    {walk : Planned α} (h : walk.Leaves e opened) (f : α → β) : (walk.map f).Leaves e opened :=
  ⟨map_eq_error_iff.2 h.result, h.unfinished⟩

/-- Where a property alone comes to an error, its schema does. -/
theorem PlansAll.exists_of_single {known : List String} {name : String} {schema : Schema}
    {e : GenerationError} {opened : List (String × Schema)}
    (h : ∃ own, PlansAll doc known [(name, schema)] own ∧ own.Leaves e opened) :
    ∃ own, Plans doc known schema own ∧ own.Leaves e opened := by
  obtain ⟨own, hall, hleaves⟩ := h
  cases hall with
  | failed h hresult =>
      have herror := hleaves.result
      cases herror
      exact ⟨_, h, hresult, hleaves.unfinished⟩
  | cons h hresult hrest =>
      have herror := map_eq_error_iff.1 hleaves.result
      cases hrest
      cases herror

theorem Walk.Defect.plans {known : List String} {schema : Schema} {e : GenerationError}
    (h : Walk.Defect doc ⟨[], [], [.schema schema]⟩ e) :
    ∃ own, Plans doc known schema own ∧ own.Leaves e [] := by
  cases h with
  | unsupportedReference hreference hname =>
      exact ⟨_, .unresolved hreference (by simp [Document.resolve, hname]), rfl, rfl⟩
  | unknownSchema hreference hname htarget =>
      exact ⟨_, .unresolved hreference (by simp [Document.resolve, hname, htarget]), rfl, rfl⟩
  | conflictingObjectShape hopen hobject hproperties hvalues =>
      exact ⟨_, .conflict hopen hobject hproperties hvalues, rfl, rfl⟩
  | emptyObjectSchema hopen hobject hproperties hvalues =>
      exact ⟨_, .empty hopen hobject hproperties hvalues, rfl, rfl⟩

mutual

/-- Where planning comes to an error, it leaves the open types without a plan and no others. -/
theorem Fails.plans : {known : List String} → {schema : Schema} → {e : GenerationError} →
    {opened : List (String × Schema)} → Fails doc known schema e opened →
      ∃ own, Plans doc known schema own ∧ own.Leaves e opened
  | _, _, _, _, .defect h => h.plans
  | _, _, _, _, .reference hreference hresolve hnew h => by
      obtain ⟨own, hown, hleaves⟩ := h.plans
      refine ⟨_, .new hreference hresolve hnew hown, map_eq_error_iff.2 hleaves.result, ?_⟩
      rw [hleaves.result, List.map_cons, ← hleaves.unfinished]
      rfl
  | _, _, _, _, .inside hinside h => by
      have hall := h.plansAll
      cases hinside with
      | boolean | anyUnion | bareArray | scalar | text => cases h
      | union hreference hother =>
          obtain ⟨own, hown, hleaves⟩ := PlansAll.exists_of_single (hall [("", _)] rfl)
          exact ⟨_, .union hreference hother hown, hleaves.map _⟩
      | array hplain htype hitems =>
          obtain ⟨own, hown, hleaves⟩ := PlansAll.exists_of_single (hall [("", _)] rfl)
          exact ⟨_, .array hplain htype hitems hown, hleaves.map _⟩
      | map hopen hobject hproperties hvalues =>
          obtain ⟨own, hown, hleaves⟩ := PlansAll.exists_of_single (hall [("", _)] rfl)
          exact ⟨_, .map hopen hobject hproperties hvalues hown, hleaves.map _⟩
      | @object k properties hopen hobject hproperties hvalues =>
          obtain ⟨own, hown, hleaves⟩ := hall properties (by rw [List.map_map]; rfl)
          exact ⟨_, .object hopen hobject hproperties hvalues hown, hleaves.map _⟩

theorem FailsAmong.plansAll : {known : List String} → {parts : List (List Access × Schema)} →
    {e : GenerationError} → {opened : List (String × Schema)} →
      FailsAmong doc known parts e opened → ∀ properties : List (String × Schema),
        properties.map Prod.snd = parts.map Prod.snd →
          ∃ own, PlansAll doc known properties own ∧ own.Leaves e opened
  | _, _, _, _, .here h => by
      intro properties hparts
      obtain ⟨own, hown, hleaves⟩ := h.plans
      obtain ⟨⟨name, schema⟩, rest, rfl, rfl, -⟩ := List.map_eq_cons_iff.1 hparts
      exact ⟨_, .failed hown hleaves.result, rfl, hleaves.unfinished⟩
  | _, _, _, _, .later h hresult hrest => by
      intro properties hparts
      have hall := hrest.plansAll
      obtain ⟨⟨name, schema⟩, rest, rfl, rfl, hothers⟩ := List.map_eq_cons_iff.1 hparts
      obtain ⟨own, hown, hleaves⟩ := hall rest hothers
      refine ⟨_, .cons h hresult hown, map_eq_error_iff.2 hleaves.result, ?_⟩
      rw [unfinished_append, unfinished_eq_nil (h.meets.result _ hresult).2, hleaves.unfinished]
      rfl

end

/-! ## The open types are linked -/

/-- What a part refers to, the schema around it refers to as well. -/
theorem Linked.of_inside {schema part : Schema} {parts : List (List Access × Schema)}
    {steps : List Access} {name : String} {opened : List (String × Schema)}
    (hinside : schema.Inside parts) (hmem : (steps, part) ∈ parts)
    (h : Linked doc ((name, part) :: opened)) : Linked doc ((name, schema) :: opened) := by
  cases opened with
  | nil => exact .singleton _
  | cons first rest =>
      obtain ⟨⟨hrefers, hcomponent⟩, hrest⟩ := List.isChain_cons_cons.1 h
      have hpart : schema.Part (steps ++ []) part := .inside hinside hmem .here
      exact .cons_cons ⟨hpart.refers hrefers, hcomponent⟩ hrest

mutual

/-- The schema that is planned refers to the first of the open types, and so on. -/
theorem Fails.linked (name : String) : {known : List String} → {schema : Schema} →
    {e : GenerationError} → {opened : List (String × Schema)} → Fails doc known schema e opened →
      Linked doc ((name, schema) :: opened)
  | _, _, _, _, .defect _ => .singleton _
  | _, _, _, _, .reference hreference hresolve _ h => by
      obtain ⟨hname, htarget⟩ := Document.resolve_eq_ok_iff.1 hresolve
      exact .cons_cons ⟨⟨[], _, _, .here, hreference, hname⟩, htarget⟩ (h.linked _)
  | _, _, _, _, .inside hinside h => by
      obtain ⟨steps, part, hmem, hlinked⟩ := h.linked name
      exact hlinked.of_inside hinside hmem

theorem FailsAmong.linked (name : String) : {known : List String} →
    {parts : List (List Access × Schema)} → {e : GenerationError} →
      {opened : List (String × Schema)} → FailsAmong doc known parts e opened →
        ∃ steps part, (steps, part) ∈ parts ∧ Linked doc ((name, part) :: opened)
  | _, _, _, _, .here h => ⟨_, _, List.mem_cons_self, h.linked name⟩
  | _, _, _, _, .later _ _ hrest => by
      obtain ⟨steps, part, hmem, hlinked⟩ := hrest.linked name
      exact ⟨steps, part, List.mem_cons_of_mem _ hmem, hlinked⟩

end

theorem Fails.linked_opened {known : List String} {schema : Schema} {e : GenerationError}
    {opened : List (String × Schema)} (h : Fails doc known schema e opened) : Linked doc opened :=
  (h.linked "").tail

/-! ## Planning a schema -/

variable {known : List String} {schema : Schema} {e : GenerationError}
  {opened : List (String × Schema)}

/-- Planning a schema fails exactly if there are types that are open then, perhaps none. -/
theorem planSchema_eq_error_iff :
    (planSchema doc known schema).result = .error e ↔ ∃ opened, Fails doc known schema e opened := by
  constructor
  · exact (planSchema_plans doc known schema).fails
  · rintro ⟨opened, h⟩
    obtain ⟨own, hown, hleaves⟩ := h.plans
    rw [← hown.eq_planSchema]
    exact hleaves.result

/-- Of the types that planning a schema has found when it fails, those without a plan are the open
ones. -/
theorem Fails.unfinished (h : Fails doc known schema e opened) :
    unfinished (planSchema doc known schema).found = opened.map Prod.fst := by
  obtain ⟨own, hown, hleaves⟩ := h.plans
  rw [← hown.eq_planSchema]
  exact hleaves.unfinished

end Failing

end DateReviver
