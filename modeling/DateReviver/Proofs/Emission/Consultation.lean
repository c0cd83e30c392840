import DateReviver.Proofs.Registry

/-!
# Emission only asks

Writing statements puts questions to the registry and changes nothing else, whichever statements are
written and also where a question fails. So whatever questions do to a registry, emission does to it as
well, and fails as they do. In particular the types with their plans are the same before and after, and
verdicts that were right stay right.
-/

namespace DateReviver

open DateReviver.TypeScript Generation Registry

section Asking

variable {R : Registry → Registry → Prop} [IsPreorder Registry R] {E : GenerationError → Prop}

mutual
theorem emitPlan_runs (hask : ∀ typeName, Runs R E (isTypeEmpty typeName)) (policy : GuardPolicy)
    (scope : Scope) (plan : Plan) (value : Expr) :
    Runs R E (emitPlan policy scope plan value) := by
  cases plan with
  | primitive =>
      rw [emitPlan]
      exact .pure _
  | date nullable =>
      rw [emitPlan]
      exact .pure _
  | delegate typeName nullable =>
      rw [emitPlan]
      refine Runs.get.bind fun r => ?_
      split
      · exact .pure _
      · refine (hask typeName).bind fun empty => ?_
        split <;> exact .pure _
  | array item nullable =>
      rw [emitPlan]
      refine (emitPlan_runs hask policy scope.enterLoop item _).bind fun body => ?_
      split <;> exact .pure _
  | map values nullable =>
      rw [emitPlan]
      refine (emitPlan_runs hask policy scope.enterLoop values _).bind fun body => ?_
      split <;> exact .pure _
  | object properties nullable =>
      rw [emitPlan]
      have hbody := emitProperties_runs hask policy scope.enterProperty properties value
      refine hbody.bind fun body => ?_
      split <;> exact .pure _

theorem emitProperties_runs (hask : ∀ typeName, Runs R E (isTypeEmpty typeName))
    (policy : GuardPolicy) (scope : Scope) (properties : List (String × Plan)) (object : Expr) :
    Runs R E (emitProperties policy scope properties object) := by
  cases properties with
  | nil =>
      rw [emitProperties]
      exact .pure _
  | cons property rest =>
      obtain ⟨name, plan⟩ := property
      rw [emitProperties]
      refine (emitPlan_runs hask policy scope plan _).bind fun own => ?_
      refine (emitProperties_runs hask policy scope rest object).bind fun others => ?_
      exact .pure _
end

variable (hask : ∀ typeName, Runs R E (isTypeEmpty typeName))

include hask

theorem callSite_runs (policy : GuardPolicy) (typeName : String) (value : Expr) :
    Runs R E (callSite policy typeName value) := by
  unfold callSite
  refine Runs.get.bind fun r => ?_
  split
  · refine (emitPlan_runs hask policy .root _ value).bind fun statements => ?_
    split <;> exact .pure _
  · exact .pure _

theorem operationFunction_runs (policy : GuardPolicy) (operation : OperationPlan) :
    Runs R E (operationFunction policy operation) := by
  unfold operationFunction
  refine Runs.bind (emitPlan_runs hask policy .root _ _) fun body => ?_
  split <;> exact .pure _

theorem operationFunctions_runs (policy : GuardPolicy) (operations : List OperationPlan) :
    Runs R E (operationFunctions policy operations) := by
  induction operations with
  | nil => exact .pure _
  | cons operation rest ih =>
      exact (operationFunction_runs hask policy operation).bind fun _ => ih.bind fun _ => .pure _

variable (hnote : ∀ n : Note, n.planned? = none → Runs R E (note n))

include hnote

theorem typeFunction_runs (policy : GuardPolicy) (typeName : String) :
    Runs R E (typeFunction policy typeName) := by
  unfold typeFunction
  refine (hask typeName).bind fun empty => ?_
  split
  · exact .pure _
  · refine Runs.get.bind fun r => ?_
    split
    · exact .pure _
    · refine Runs.get.bind fun r => ?_
      split
      · exact (hnote (.aliasInlined typeName) rfl).bind fun _ => .pure _
      · refine Runs.bind (emitPlan_runs hask policy .root _ _) fun body => ?_
        split <;> exact .pure _

theorem typeFunctions_runs (policy : GuardPolicy) (typeNames : List String) :
    Runs R E (typeFunctions policy typeNames) := by
  induction typeNames with
  | nil => exact .pure _
  | cons typeName rest ih =>
      refine (typeFunction_runs hask hnote policy typeName).bind fun own => ?_
      exact ih.bind fun others => .pure _

theorem allTypeFunctions_runs (policy : GuardPolicy) : Runs R E (allTypeFunctions policy) :=
  Runs.get.bind fun r => typeFunctions_runs hask hnote policy r.typeNames

end Asking

/-! ## What questions leave -/

theorem isTypeEmpty_runs (typeName : String) :
    Runs Consulted (fun _ => True) (isTypeEmpty typeName) :=
  (isTypeEmpty_consults typeName).runs

theorem note_runs (n : Note) : Runs Consulted (fun _ => True) (note n) :=
  (note_consults n).runs

theorem emitPlan_consults (policy : GuardPolicy) (scope : Scope) (plan : Plan) (value : Expr) :
    Changes Consulted (emitPlan policy scope plan value) :=
  (emitPlan_runs isTypeEmpty_runs policy scope plan value).changes

theorem callSite_consults (policy : GuardPolicy) (typeName : String) (value : Expr) :
    Changes Consulted (callSite policy typeName value) :=
  (callSite_runs isTypeEmpty_runs policy typeName value).changes

theorem typeFunction_consults (policy : GuardPolicy) (typeName : String) :
    Changes Consulted (typeFunction policy typeName) :=
  (typeFunction_runs isTypeEmpty_runs (fun n _ => note_runs n) policy typeName).changes

theorem allTypeFunctions_consults (policy : GuardPolicy) :
    Changes Consulted (allTypeFunctions policy) :=
  (allTypeFunctions_runs isTypeEmpty_runs (fun n _ => note_runs n) policy).changes

theorem operationFunction_consults (policy : GuardPolicy) (operation : OperationPlan) :
    Changes Consulted (operationFunction policy operation) :=
  (operationFunction_runs isTypeEmpty_runs policy operation).changes

theorem operationFunctions_consults (policy : GuardPolicy) (operations : List OperationPlan) :
    Changes Consulted (operationFunctions policy operations) :=
  (operationFunctions_runs isTypeEmpty_runs policy operations).changes

end DateReviver
