import DateReviver.Operations
import DateReviver.Proofs.Emission.Specification

/-!
# What functions are written

Of every type from whose plan dates are reached there is one function, unless the type is another
name of date-time strings; of every operation from whose plan dates are reached there is one that
returns the response. The lists of both kinds are given here as what every successful emission
writes.
-/

namespace DateReviver

open DateReviver.TypeScript DateReviver.Text Generation

namespace Registry

/-- A type needs a function: dates are reached from its plan, and its values are not strings that
are converted in place. -/
structure NeedsFunction (r : Registry) (typeName : String) (plan : Plan) : Prop where
  plan? : r.plan? typeName = some plan
  holdsDate : r.HoldsDate plan
  notAlias : r.dateAlias? typeName = none

/-- The function for a type with its plan. -/
noncomputable def functionOfType (r : Registry) (policy : GuardPolicy) (typeName : String)
    (plan : Plan) : Function :=
  ⟨functionName typeName, [⟨parameterName typeName, some (.named typeName)⟩],
    r.statements policy .root plan (.ident (parameterName typeName)), false⟩

/-- The function for an operation. -/
noncomputable def functionOfOperation (r : Registry) (policy : GuardPolicy)
    (operation : OperationPlan) : Function :=
  ⟨"transform" ++ capitalize operation.name ++ "OperationResponse",
    [⟨"response", some operation.responseType⟩],
    r.statements policy .root operation.plan (.ident "response") ++ [.ret (.ident "response")],
    true⟩

open Classical in
/-- The function for a type, if it needs one. -/
noncomputable def typeFunction? (r : Registry) (policy : GuardPolicy) (typeName : String) :
    Option Function :=
  (r.plan? typeName).bind fun plan =>
    if r.NeedsFunction typeName plan then some (r.functionOfType policy typeName plan) else none

open Classical in
/-- The function for an operation, if dates are reached from its plan. -/
noncomputable def operationFunction? (r : Registry) (policy : GuardPolicy)
    (operation : OperationPlan) : Option Function :=
  if r.HoldsDate operation.plan then some (r.functionOfOperation policy operation) else none

variable {r : Registry} {policy : GuardPolicy} {typeName : String} {plan : Plan}

theorem typeFunction?_of_needs (h : r.NeedsFunction typeName plan) :
    r.typeFunction? policy typeName = some (r.functionOfType policy typeName plan) := by
  rw [typeFunction?, h.plan?]
  exact if_pos h

theorem needs_of_typeFunction? {f : Function} (h : r.typeFunction? policy typeName = some f) :
    ∃ plan, r.NeedsFunction typeName plan ∧ f = r.functionOfType policy typeName plan := by
  obtain ⟨plan, _, hf⟩ := Option.bind_eq_some_iff.1 h
  split at hf
  · rename_i hneeds
    cases hf
    exact ⟨plan, hneeds, rfl⟩
  · cases hf

theorem holdsDate_of_operationFunction? {operation : OperationPlan} {f : Function}
    (h : r.operationFunction? policy operation = some f) :
    r.HoldsDate operation.plan ∧ f = r.functionOfOperation policy operation := by
  unfold operationFunction? at h
  split at h
  · rename_i hdate
    cases h
    exact ⟨hdate, rfl⟩
  · cases h

end Registry

open Registry

/-! ## Every emission writes them -/

section Writes

variable {r now after : Registry} {policy : GuardPolicy}

theorem typeFunction_eq (h : r.Current now) {typeName : String} {own : Option Function}
    (hrun : (typeFunction policy typeName).run now = (.ok own, after)) :
    own = r.typeFunction? policy typeName := by
  obtain ⟨empty, middle, hasked, hlast⟩ := run_bind_ok hrun
  obtain ⟨plan, hplan, hempty⟩ := h.isTypeEmpty hasked
  have hmiddle := h.next (isTypeEmpty_consults typeName) hasked
  have hfound : middle.plan? typeName = some plan :=
    (plan?_of_methods hmiddle.methods typeName).trans hplan
  rw [typeFunction?, hplan, Option.bind_some]
  split at hlast
  · rename_i htrue
    cases hlast
    rw [if_neg]
    exact fun hneeds => by simp [hempty.2 hneeds.holdsDate] at htrue
  · rename_i hfalse
    have hdate := hempty.1 (by simpa using hfalse)
    rw [run_bind, run_get] at hlast
    dsimp only at hlast
    rw [hfound] at hlast
    dsimp only at hlast
    rw [run_bind, run_get] at hlast
    dsimp only at hlast
    rw [dateAlias?_of_methods hmiddle.methods] at hlast
    split at hlast
    · rename_i halias
      cases hlast
      rw [if_neg]
      exact fun hneeds => by simp [hneeds.notAlias] at halias
    · rename_i hnone
      have hneeds : r.NeedsFunction typeName plan := ⟨hplan, hdate, by simpa using hnone⟩
      obtain ⟨body, last, hbody, hlast⟩ := run_bind_ok hlast
      have hstatements := emitPlan_statements hmiddle hbody
      have hne : body ≠ [] := by
        rw [hstatements, Ne, statements_eq_nil_iff, not_not]
        exact hdate
      rw [if_neg (by simpa using hne)] at hlast
      cases hlast
      rw [if_pos hneeds, functionOfType, ← hstatements]

theorem operationFunction_eq (h : r.Current now) {operation : OperationPlan}
    {own : Option Function}
    (hrun : (operationFunction policy operation).run now = (.ok own, after)) :
    own = r.operationFunction? policy operation := by
  obtain ⟨body, middle, hbody, hlast⟩ := run_bind_ok hrun
  have hstatements := emitPlan_statements h hbody
  unfold operationFunction?
  split at hlast
  · rename_i hempty
    cases hlast
    rw [if_neg]
    rw [← statements_eq_nil_iff, ← hstatements]
    exact List.isEmpty_iff.1 hempty
  · rename_i hne
    cases hlast
    rw [if_pos, functionOfOperation, ← hstatements]
    by_contra hnot
    rw [← statements_eq_nil_iff, ← hstatements] at hnot
    exact hne (List.isEmpty_iff.2 hnot)

theorem toList_append_filterMap {α β : Type} (f : α → Option β) (a : α) (rest : List α) :
    (f a).toList ++ rest.filterMap f = (a :: rest).filterMap f := by
  rcases ha : f a with _ | b
  · rw [List.filterMap_cons_none ha]
    rfl
  · rw [List.filterMap_cons_some ha]
    rfl

theorem typeFunctions_eq (h : r.Current now) {typeNames : List String}
    {functions : List Function}
    (hrun : (typeFunctions policy typeNames).run now = (.ok functions, after)) :
    functions = typeNames.filterMap (r.typeFunction? policy) := by
  induction typeNames generalizing now functions with
  | nil =>
      cases hrun
      rfl
  | cons typeName rest ih =>
      obtain ⟨own, middle, hown, hlast⟩ := run_bind_ok hrun
      obtain ⟨others, last, hothers, hpure⟩ := run_bind_ok hlast
      have hmiddle := h.next (typeFunction_consults policy typeName) hown
      cases hpure
      rw [ih hmiddle hothers, typeFunction_eq h hown, toList_append_filterMap]

theorem operationFunctions_eq (h : r.Current now) {operations : List OperationPlan}
    {functions : List Function}
    (hrun : (operationFunctions policy operations).run now = (.ok functions, after)) :
    functions = operations.filterMap (r.operationFunction? policy) := by
  induction operations generalizing now functions with
  | nil =>
      cases hrun
      rfl
  | cons operation rest ih =>
      obtain ⟨own, middle, hown, hlast⟩ := run_bind_ok hrun
      obtain ⟨others, last, hothers, hpure⟩ := run_bind_ok hlast
      have hmiddle := h.next (operationFunction_consults policy operation) hown
      cases hpure
      rw [ih hmiddle hothers, operationFunction_eq h hown, toList_append_filterMap]

end Writes

end DateReviver
