import DateReviver.Proofs.Emission.Preservation
import DateReviver.Proofs.Emission.Success
import DateReviver.Proofs.Operations
import DateReviver.Proofs.Related

/-!
# What a generation is made of

A generation plans first, then writes. Planning leaves a registry in which every type has the
translation of its component schema for a plan, and an operation for each endpoint with a JSON body.
Writing cannot fail, and what it writes is decided by that registry.
-/

namespace DateReviver

open DateReviver.OpenApi DateReviver.TypeScript Generation Registry

/-- Plan what the options ask for: the requested types, and then the operations. -/
def planning (options : Options) (doc : Document) : Generation (List OperationPlan) := do
  registerTypes doc (options.requested doc)
  if options.includeOperations then planOperations doc else pure []

/-- Write the functions and calls for what has been planned. -/
def writing (options : Options) (doc : Document) (operations : List OperationPlan) :
    Generation Output := do
  Generation.note (.planningComplete (← get).methods.size operations.length)
  let functions ← allTypeFunctions options.policy
  let ofOperations ← operationFunctions options.policy operations
  let calls ← callSites options.policy (options.requested doc)
  Generation.note (.functionsGenerated functions.length ofOperations.length)
  pure ⟨functions, ofOperations, calls⟩

theorem generation_eq (options : Options) (doc : Document) :
    generation options doc = planning options doc >>= writing options doc := by
  unfold generation planning
  rw [bind_assoc]
  rcases hoperations : options.includeOperations with _ | _ <;> rfl

/-! ## Planning -/

/-- A registry that knows its types by the components of a document. -/
structure Registry.Faithful (doc : Document) (r : Registry) : Prop where
  sound : r.Sound
  mirrors : r.Mirrors doc

/-- An operation is planned from the response schema of an endpoint. -/
structure OperationPlan.Converts (doc : Document) (r : Registry) (endpoint : Endpoint)
    (schema : Schema) (operation : OperationPlan) : Prop where
  mem : endpoint ∈ endpoints doc
  response : successSchema endpoint.operation = .ok (some schema)
  name : operation.name = operationName endpoint.path endpoint.method endpoint.operation
  translates : Translates doc schema operation.plan
  knows : r.Knows operation.plan

theorem Registry.Extends.trans {r r' r'' : Registry} (h : r.Extends r') (h' : r'.Extends r'') :
    r.Extends r'' :=
  ⟨fun name hname => h'.typeNames name (h.typeNames name hname),
    fun name hname => (h'.plan? name (h.typeNames name hname)).trans (h.plan? name hname)⟩

theorem Registry.extends_record (r : Registry) (n : Note) : r.Extends (r.record n) :=
  .of_methods rfl

section Planning

variable {doc : Document} {r r' : Registry}

theorem faithful_empty : Registry.empty.Faithful doc :=
  ⟨sound_empty, fun _ hmem => by cases hmem⟩

theorem Registry.Faithful.of_methods (h : r.Faithful doc) (hsound : r'.Sound)
    (hmethods : r'.methods = r.methods) : r'.Faithful doc := by
  refine ⟨hsound, fun typeName hmem => ?_⟩
  rw [Registry.typeNames, hmethods] at hmem
  obtain ⟨schema, plan, hcomponent, hplan, htranslates⟩ := h.mirrors typeName hmem
  exact ⟨schema, plan, hcomponent, (plan?_of_methods hmethods typeName).trans hplan, htranslates⟩

theorem Registry.Faithful.note (h : r.Faithful doc) (n : Note) : (r.record n).Faithful doc :=
  h.of_methods ((note_consults n r).sound h.sound) rfl

theorem Registry.Faithful.allPlanned (h : r.Faithful doc) : r.AllPlanned := by
  intro typeName hmem
  obtain ⟨_, plan, _, hplan, _⟩ := h.mirrors typeName hmem
  exact ⟨plan, hplan⟩

theorem register_ok (h : r.Faithful doc) {typeName : String} {schema : Schema}
    (hcomponent : Component doc typeName schema)
    (hrun : (Generation.register doc typeName schema).run r = (.ok (), r')) : r'.Faithful doc := by
  have hsound := register_keepsSound doc typeName schema r
  rw [hrun] at hsound
  exact ⟨hsound h.sound, mirrors_of_register h.mirrors hcomponent hrun⟩

theorem registerTypes_ok (h : r.Faithful doc) {typeNames : List String}
    (hrun : (registerTypes doc typeNames).run r = (.ok (), r')) : r'.Faithful doc := by
  induction typeNames generalizing r with
  | nil =>
      cases hrun
      exact h
  | cons typeName rest ih =>
      rw [registerTypes] at hrun
      split at hrun
      · cases hrun
      · rename_i schema hschema
        obtain ⟨_, middle, hown, hlast⟩ := run_bind_ok hrun
        exact ih (register_ok h hschema hown) hlast

/-- The registry after a schema is planned has what it had, and knows what the plan names. -/
theorem plan_grows {schema : Schema} {plan : Plan}
    (hrun : (Generation.plan doc schema).run r = (.ok plan, r')) :
    r.Extends r' ∧ Translates doc schema plan ∧ r'.Knows plan := by
  have hmeets := planSchema_meets doc r.typeNames schema
  unfold Generation.plan at hrun
  rw [run_absorb] at hrun
  injection hrun with hresult hr'
  obtain ⟨htranslates, hnames⟩ := (hmeets.result plan hresult).1
  rw [← hr']
  refine ⟨extends_register hmeets.discovers, htranslates, ?_⟩
  refine Plan.Within.mono hnames id fun name hname => ?_
  rw [typeNames_register hmeets.discovers]
  exact List.mem_append.2 hname

theorem plan_faithful (h : r.Faithful doc) {schema : Schema} {plan : Plan}
    (hrun : (Generation.plan doc schema).run r = (.ok plan, r')) : r'.Faithful doc := by
  obtain ⟨_, _, hmirrors⟩ := plan_ok h.mirrors hrun
  have hsound := plan_keepsSound doc schema r
  rw [hrun] at hsound
  exact ⟨hsound h.sound, hmirrors⟩

/-- Operations are planned one after another: the first is passed over if it has no response with a
JSON body, or else its schema is planned before the others are looked at. -/
theorem planEndpoints_ok_cases {taken : List String} {endpoint : Endpoint} {rest : List Endpoint}
    {operations : List OperationPlan}
    (hrun : (planEndpoints doc taken (endpoint :: rest)).run r = (.ok operations, r')) :
    (endpoint.response? = none ∧
      (planEndpoints doc (endpoint.name :: taken) rest).run
        (r.record (.noJsonResponse endpoint.path endpoint.method)) = (.ok operations, r')) ∨
    ∃ schema plan planned others, endpoint.response? = some (endpoint, schema) ∧
      (Generation.plan doc schema).run r = (.ok plan, planned) ∧
      (planEndpoints doc (endpoint.name :: taken) rest).run
        (planned.record (.operationPlanned endpoint.name endpoint.path)) = (.ok others, r') ∧
      operations = ⟨endpoint.name, endpoint.path, endpoint.method, responseType schema, plan⟩ ::
        others := by
  obtain ⟨path, method, operation⟩ := endpoint
  rw [planEndpoints] at hrun
  dsimp only at hrun
  split at hrun
  · cases hrun
  · obtain ⟨chosen, middle, hchosen, hlast⟩ := run_bind_ok hrun
    rw [run_ofExcept] at hchosen
    injection hchosen with hresponse hmiddle
    subst hmiddle
    have hanswer : Endpoint.response? ⟨path, method, operation⟩ = chosen.map (Prod.mk _) :=
      Endpoint.response?_eq hresponse
    split at hlast
    · obtain ⟨_, middle, hnote, hlast⟩ := run_bind_ok hlast
      cases hnote
      exact .inl ⟨hanswer, hlast⟩
    · rename_i schema
      obtain ⟨plan, planned, hplan, hlast⟩ := run_bind_ok hlast
      obtain ⟨_, noted, hnote, hlast⟩ := run_bind_ok hlast
      cases hnote
      obtain ⟨others, last, hothers, hpure⟩ := run_bind_ok hlast
      cases hpure
      exact .inr ⟨schema, plan, planned, others, hanswer, hplan, hothers, rfl⟩

/-- Each response is planned, and its parameter declared, by its schema. -/
def OperationPlan.Answers (doc : Document) (r : Registry) (response : Endpoint × Schema)
    (operation : OperationPlan) : Prop :=
  operation.Converts doc r response.1 response.2 ∧
    operation.responseType = DateReviver.responseType response.2

theorem planEndpoints_answers {taken : List String} {list : List Endpoint}
    {operations : List OperationPlan} (hlist : ∀ endpoint ∈ list, endpoint ∈ endpoints doc)
    (hrun : (planEndpoints doc taken list).run r = (.ok operations, r')) :
    (r.Faithful doc → r'.Faithful doc) ∧ r.Extends r' ∧
      List.Forall₂ (OperationPlan.Answers doc r') (list.filterMap Endpoint.response?)
        operations := by
  induction list generalizing taken r operations with
  | nil =>
      cases hrun
      exact ⟨id, .of_methods rfl, .nil⟩
  | cons endpoint rest ih =>
      have hrest := fun other hother => hlist other (List.mem_cons_of_mem _ hother)
      rcases planEndpoints_ok_cases hrun with ⟨hnone, hlast⟩ |
        ⟨schema, plan, planned, others, hresponse, hplan, hlast, rfl⟩
      · obtain ⟨hfaithful, hextends, hall⟩ := ih hrest hlast
        rw [List.filterMap_cons_none hnone]
        exact ⟨fun h => hfaithful (h.note _), (extends_record r _).trans hextends, hall⟩
      · obtain ⟨hgrown, htranslates, hknows⟩ := plan_grows hplan
        obtain ⟨hfaithful, hextends, hall⟩ := ih hrest hlast
        have hgrows : planned.Extends r' := (extends_record planned _).trans hextends
        have hoffer := (Endpoint.response?_eq_some_iff.1 hresponse).2
        have hchosen : successSchema endpoint.operation = .ok (some schema) := by
          rw [successSchema_eq, hoffer]
          rfl
        -- Later operations may register further types, which the plan of this one does not name.
        have hown : OperationPlan.Answers doc r' (endpoint, schema)
            ⟨endpoint.name, endpoint.path, endpoint.method, DateReviver.responseType schema, plan⟩ :=
          ⟨⟨hlist _ List.mem_cons_self, hchosen, rfl, htranslates, hgrows.knows hknows⟩, rfl⟩
        rw [List.filterMap_cons_some hresponse]
        exact ⟨fun h => hfaithful ((plan_faithful h hplan).note _), hgrown.trans hgrows,
          .cons hown hall⟩

/-- What planning leaves if it succeeds: every response that the options ask for is planned. -/
theorem planning_answers {options : Options} {operations : List OperationPlan}
    (hrun : (planning options doc).run .empty = (.ok operations, r)) :
    r.Faithful doc ∧
      List.Forall₂ (OperationPlan.Answers doc r) (options.responses doc) operations := by
  obtain ⟨_, middle, htypes, hlast⟩ := run_bind_ok hrun
  have hmiddle := registerTypes_ok faithful_empty htypes
  unfold Options.responses Options.operations
  split at hlast
  · rename_i hinclude
    rw [if_pos hinclude]
    obtain ⟨hfaithful, _, hall⟩ := planEndpoints_answers (fun _ h => h) hlast
    exact ⟨hfaithful hmiddle, hall⟩
  · rename_i hleave
    rw [if_neg hleave]
    cases hlast
    exact ⟨hmiddle, .nil⟩

theorem planning_converts {options : Options} {operations : List OperationPlan}
    (hrun : (planning options doc).run .empty = (.ok operations, r)) :
    r.Faithful doc ∧
      List.Forall₂ (fun response operation => operation.Converts doc r response.1 response.2)
        (options.responses doc) operations := by
  obtain ⟨hfaithful, hall⟩ := planning_answers hrun
  exact ⟨hfaithful, hall.imp fun _ _ h => h.1⟩

theorem planning_ok {options : Options} {operations : List OperationPlan}
    (hrun : (planning options doc).run .empty = (.ok operations, r)) :
    r.Faithful doc ∧
      ∀ operation ∈ operations, ∃ endpoint schema, operation.Converts doc r endpoint schema := by
  obtain ⟨hfaithful, hall⟩ := planning_converts hrun
  refine ⟨hfaithful, fun operation hmem => ?_⟩
  obtain ⟨response, _, hconverts⟩ := exists_of_mem_right hall hmem
  exact ⟨response.1, response.2, hconverts⟩

end Planning

/-! ## Writing -/

/-- What is generated from planned types and operations. -/
structure Output.WrittenFor (options : Options) (r : Registry) (operations : List OperationPlan)
    (output : Output) : Prop where
  typeFunctions : output.typeFunctions = r.typeNames.filterMap (r.typeFunction? options.policy)
  operationFunctions :
    output.operationFunctions = operations.filterMap (r.operationFunction? options.policy)

section Writing

variable {options : Options} {doc : Document} {r after : Registry}
  {operations : List OperationPlan} {output : Output}

theorem writing_eq (hsound : r.Sound)
    (hrun : (writing options doc operations).run r = (.ok output, after)) :
    output.WrittenFor options r operations := by
  unfold writing at hrun
  rw [run_bind, run_get] at hrun
  obtain ⟨_, noted, hnote, hlast⟩ := run_bind_ok hrun
  have hnoted := (Current.refl hsound).next (note_consults _) hnote
  obtain ⟨functions, written, hfunctions, hlast⟩ := run_bind_ok hlast
  have hwritten := hnoted.next (allTypeFunctions_consults _) hfunctions
  obtain ⟨ofOperations, middle, hoperations, hlast⟩ := run_bind_ok hlast
  obtain ⟨calls, last, _, hlast⟩ := run_bind_ok hlast
  obtain ⟨_, end', _, hpure⟩ := run_bind_ok hlast
  cases hpure
  unfold allTypeFunctions at hfunctions
  rw [run_bind, run_get] at hfunctions
  refine ⟨?_, operationFunctions_eq hwritten hoperations⟩
  have heq := typeFunctions_eq hnoted hfunctions
  rwa [Registry.typeNames, hnoted.methods] at heq

theorem writing_ok (h : r.Faithful doc)
    (hknows : ∀ operation ∈ operations, r.Knows operation.plan) :
    ∃ output after, (writing options doc operations).run r = (.ok output, after) := by
  have hanswers : r.Answers (writing options doc operations) := by
    unfold writing
    refine .get_bind fun _ _ => (Answers.note _).bind fun _ => ?_
    refine Answers.bind ?_ fun functions => ?_
    · refine .get_bind fun now hnow => ?_
      refine h.allPlanned.typeFunctions h.sound _ fun typeName hmem => ?_
      rwa [Registry.typeNames, hnow.methods] at hmem
    · refine (h.allPlanned.operationFunctions _ hknows).bind fun _ => ?_
      exact (h.allPlanned.callSites _ _).bind fun _ => (Answers.note _).bind fun _ => .pure _
  obtain ⟨output, after, hrun, _⟩ := hanswers r (.refl h.sound)
  exact ⟨output, after, hrun⟩

/-- A generation succeeds exactly if its planning does. -/
theorem generate_ok_iff : (∃ output, generate options doc = .ok output) ↔
    ∃ operations r, (planning options doc).run .empty = (.ok operations, r) := by
  unfold generate
  rw [generation_eq, run_bind]
  constructor
  · rintro ⟨output, hrun⟩
    rcases hplanning : (planning options doc).run .empty with ⟨error | operations, r⟩
    · rw [hplanning] at hrun
      cases hrun
    · exact ⟨operations, r, rfl⟩
  · rintro ⟨operations, r, hplanning⟩
    obtain ⟨hfaithful, hall⟩ := planning_ok hplanning
    have hknows : ∀ operation ∈ operations, r.Knows operation.plan := by
      intro operation hmem
      obtain ⟨endpoint, schema, hconverts⟩ := hall operation hmem
      exact hconverts.knows
    obtain ⟨output, after, hrun⟩ := writing_ok hfaithful hknows
    rw [hplanning]
    exact ⟨output, congrArg Prod.fst hrun⟩

/-- What is generated is decided by what was planned. -/
theorem writtenFor_of_generate (hplanning : (planning options doc).run .empty = (.ok operations, r))
    (hrun : generate options doc = .ok output) : output.WrittenFor options r operations := by
  unfold generate at hrun
  rw [generation_eq, run_bind, hplanning] at hrun
  exact writing_eq (planning_ok hplanning).1.sound (Prod.ext hrun rfl)

end Writing

end DateReviver
