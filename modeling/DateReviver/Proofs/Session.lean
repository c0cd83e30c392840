import DateReviver.Proofs.Emission.Consultation

/-!
# Sessions on a registry

A session is any finite sequence of calls on one registry of one document: planning, questions and
emission in any order, failed calls included. Over its life a registry may also be used for several
documents. Whatever the calls were, the registry is sound between them.
-/

namespace DateReviver

open DateReviver.OpenApi DateReviver.TypeScript Generation

/-- A call on the registry of a document. -/
inductive Call where
  | register (typeName : String) (schema : Schema)
  | plan (schema : Schema)
  | planOperations
  | isTypeEmpty (typeName : String)
  | isPlanEmpty (plan : Plan)
  | dateAlias (typeName : String)
  | emit (policy : GuardPolicy) (plan : Plan) (value : Expr)
  | callSite (policy : GuardPolicy) (typeName : String) (value : Expr)
  | typeFunction (policy : GuardPolicy) (typeName : String)
  | allTypeFunctions (policy : GuardPolicy)
  | operationFunction (policy : GuardPolicy) (operation : OperationPlan)

/-- A call as a step of a run. Its answer is dropped. -/
def Call.step (doc : Document) : Call → Generation Unit
  | .register typeName schema => Generation.register doc typeName schema
  | .plan schema => discard (Generation.plan doc schema)
  | .planOperations => discard (DateReviver.planOperations doc)
  | .isTypeEmpty typeName => discard (Generation.isTypeEmpty typeName)
  | .isPlanEmpty asked => discard (Generation.isPlanEmpty asked)
  | .dateAlias typeName => discard ((·.dateAlias? typeName) <$> get)
  | .emit policy carried value => discard (DateReviver.emit policy carried value)
  | .callSite policy typeName value => discard (DateReviver.callSite policy typeName value)
  | .typeFunction policy typeName => discard (DateReviver.typeFunction policy typeName)
  | .allTypeFunctions policy => discard (DateReviver.allTypeFunctions policy)
  | .operationFunction policy operation =>
      discard (DateReviver.operationFunction policy operation)

namespace Registry

/-- The registry that a session on a document leaves, starting from an empty one. A call that fails
leaves what it has changed. -/
def session (doc : Document) (calls : List Call) : Registry :=
  calls.foldl (fun r call => ((call.step doc).run r).2) .empty

/-- The registry that calls leave, each for its document. -/
def lifetime (calls : List (Document × Call)) : Registry :=
  calls.foldl (fun r call => ((call.2.step call.1).run r).2) .empty

/-- A session is a life with one document. -/
theorem session_eq_lifetime (doc : Document) (calls : List Call) :
    session doc calls = lifetime (calls.map fun call => (doc, call)) := by
  rw [session, lifetime, List.foldl_map]

/-- A sound registry stays sound. -/
def KeepsSound (r r' : Registry) : Prop :=
  r.Sound → r'.Sound

instance : IsPreorder Registry KeepsSound where
  refl _ := id
  trans _ _ _ h₁ h₂ := h₂ ∘ h₁

theorem KeepsSound.of_consulted (r r' : Registry) (h : r.Consulted r') : r.KeepsSound r' :=
  h.sound

end Registry

open Registry

/-- The calls that plan. All others only ask. -/
inductive Call.IsPlanning : Call → Prop
  | register {typeName : String} {schema : Schema} : IsPlanning (.register typeName schema)
  | plan {schema : Schema} : IsPlanning (.plan schema)
  | planOperations : IsPlanning .planOperations

/-! ## What calls do to a registry -/

/-- To register what planning discovers leads to a related registry. -/
def Registry.Registers (R : Registry → Registry → Prop) (doc : Document) : Prop :=
  ∀ r origin found, Discovers doc origin (typeNames r) found → R r (r.register found)

section Calls

variable {R : Registry → Registry → Prop} {doc : Document}

theorem register_changes (h : Registers R doc) (typeName : String) (schema : Schema) :
    Changes R (Generation.register doc typeName schema) := by
  intro r
  obtain ⟨origin, hdiscovers⟩ := exists_discovers_planType doc r.typeNames typeName schema
  unfold Generation.register
  rw [run_absorb]
  exact h r origin _ hdiscovers

theorem plan_changes (h : Registers R doc) (schema : Schema) :
    Changes R (Generation.plan doc schema) := by
  intro r
  unfold Generation.plan
  rw [run_absorb]
  exact h r (Component doc) _ (planSchema_meets doc r.typeNames schema).discovers

variable [IsPreorder Registry R]

/-- Planning operations one after the other changes the registry as planning their responses does. -/
theorem planEndpoints_changes (h : Registers R doc)
    (hnote : ∀ n : Note, n.planned? = none → Changes R (note n)) (taken : List String)
    (endpoints : List Endpoint) : Changes R (planEndpoints doc taken endpoints) := by
  induction endpoints generalizing taken with
  | nil => exact .pure _
  | cons endpoint rest ih =>
      obtain ⟨path, method, operation⟩ := endpoint
      rw [planEndpoints]
      dsimp only
      split
      · exact .throw_bind _ _
      · refine (Changes.ofExcept _).bind fun chosen => ?_
        split
        · exact (hnote (.noJsonResponse path method) rfl).bind fun _ => ih _
        · refine (plan_changes h _).bind fun plan => ?_
          refine (hnote (.operationPlanned _ path) rfl).bind fun _ => ?_
          exact (ih _).bind fun _ => .pure _

/-- A call that only asks changes the registry as questions and notes do, and fails as questions do. -/
theorem Call.step_runs {E : GenerationError → Prop}
    (hask : ∀ typeName, Runs R E (Generation.isTypeEmpty typeName))
    (haskPlan : ∀ plan, Runs R E (Generation.isPlanEmpty plan))
    (hnote : ∀ n : Note, n.planned? = none → Runs R E (note n)) {call : Call}
    (h : ¬ call.IsPlanning) : Runs R E (call.step doc) := by
  cases call with
  | register | plan | planOperations => exact absurd (by constructor) h
  | isTypeEmpty typeName => exact (hask typeName).map _
  | isPlanEmpty plan => exact (haskPlan plan).map _
  | dateAlias typeName => exact (Runs.get.map _).map _
  | emit policy plan value => exact (emitPlan_runs hask policy .root plan value).map _
  | callSite policy typeName value => exact (callSite_runs hask policy typeName value).map _
  | typeFunction policy typeName => exact (typeFunction_runs hask hnote policy typeName).map _
  | allTypeFunctions policy => exact (allTypeFunctions_runs hask hnote policy).map _
  | operationFunction policy operation =>
      exact (operationFunction_runs hask policy operation).map _

/-- A call changes the registry as planning, questions and notes do. -/
theorem Call.step_changes (hregister : Registers R doc)
    (hask : ∀ typeName, Changes R (Generation.isTypeEmpty typeName))
    (haskPlan : ∀ plan, Changes R (Generation.isPlanEmpty plan))
    (hnote : ∀ n : Note, n.planned? = none → Changes R (note n)) (call : Call) :
    Changes R (call.step doc) := by
  by_cases hplanning : call.IsPlanning
  · cases hplanning with
    | register => exact register_changes hregister _ _
    | plan => exact (plan_changes hregister _).map _
    | planOperations => exact (planEndpoints_changes hregister hnote [] _).map _
  · have hruns : Runs R (fun _ => True) (call.step doc) :=
      Call.step_runs (fun typeName => (hask typeName).runs) (fun plan => (haskPlan plan).runs)
        (fun n hn => (hnote n hn).runs) hplanning
    exact hruns.changes

/-- What each call does to a registry, calls do one after the other. -/
theorem foldl_changes (h : ∀ (doc : Document) (call : Call), Changes R (call.step doc))
    (calls : List (Document × Call)) (r : Registry) :
    R r (calls.foldl (fun r call => ((call.2.step call.1).run r).2) r) := by
  induction calls generalizing r with
  | nil => exact refl_of R r
  | cons call rest ih => exact trans_of R (h call.1 call.2 r) (ih _)

end Calls

theorem registers_keepsSound (doc : Document) : Registers KeepsSound doc :=
  fun _ _ _ hdiscovers hsound => hsound.register hdiscovers

theorem register_keepsSound (doc : Document) (typeName : String) (schema : Schema) :
    Changes KeepsSound (Generation.register doc typeName schema) :=
  register_changes (registers_keepsSound doc) typeName schema

theorem plan_keepsSound (doc : Document) (schema : Schema) :
    Changes KeepsSound (Generation.plan doc schema) :=
  plan_changes (registers_keepsSound doc) schema

theorem Call.step_consults {doc : Document} {call : Call} (h : ¬ call.IsPlanning) :
    Changes Consulted (call.step doc) :=
  (Call.step_runs isTypeEmpty_runs (fun plan => (isPlanEmpty_consults plan).runs)
    (fun n _ => note_runs n) h).changes

theorem Call.step_keepsSound (doc : Document) (call : Call) :
    Changes KeepsSound (call.step doc) := by
  apply Call.step_changes (registers_keepsSound doc)
  · exact fun typeName => (isTypeEmpty_consults typeName).mono KeepsSound.of_consulted
  · exact fun plan => (isPlanEmpty_consults plan).mono KeepsSound.of_consulted
  · exact fun n _ => (note_consults n).mono KeepsSound.of_consulted

/-- A registry is sound between calls, whatever they were. -/
theorem Registry.lifetime_sound (calls : List (Document × Call)) : (Registry.lifetime calls).Sound :=
  foldl_changes Call.step_keepsSound calls .empty Registry.sound_empty

/-- A registry is sound between the calls of a session. -/
theorem Registry.session_sound (doc : Document) (calls : List Call) :
    (Registry.session doc calls).Sound :=
  session_eq_lifetime doc calls ▸ lifetime_sound _

end DateReviver
