import DateReviver.Proofs.Confluence
import DateReviver.Proofs.Planning.Preorder

/-!
# Types stand in order of first reference

What is asked for names types: a type that is registered, the references of a schema that is planned,
those of the responses of operations. If nothing fails, the types of a registry are those that are met
from these names on, depth first, in the order in which they were asked for. The functions of a module
stand in the same order: first come the requested types with all that they lead to, and then the
operations by path and method.
-/

namespace DateReviver

open DateReviver.OpenApi DateReviver.TypeScript Generation Registry

/-! ## Steps -/

namespace Generation

variable {α β : Type} {doc : Document} {names first second : List String} {x : Generation α}

/-- A step that succeeds registers what is met from some types on, after the types that are known. -/
def Visits (doc : Document) (names : List String) (x : Generation α) : Prop :=
  ∀ r a r', x.run r = (.ok a, r') →
    ∃ found, r'.typeNames = r.typeNames ++ found ∧ doc.InPreorder r.typeNames names found

theorem Visits.of_consulted (h : Changes Consulted x) : Visits doc [] x := by
  intro r a r' hrun
  have hconsulted := h r
  rw [hrun] at hconsulted
  exact ⟨[], by rw [hconsulted.typeNames, List.append_nil], .nil⟩

theorem Visits.pure (a : α) : Visits doc [] (pure a : Generation α) :=
  .of_consulted (.pure a)

theorem Visits.bind {f : α → Generation β} (hx : Visits doc first x)
    (hf : ∀ a, Visits doc second (f a)) : Visits doc (first ++ second) (x >>= f) := by
  intro r b r' hrun
  obtain ⟨a, middle, hfirst, hlast⟩ := run_bind_ok hrun
  obtain ⟨found, hmiddle, hfound⟩ := hx r a middle hfirst
  obtain ⟨later, hafter, hlater⟩ := hf a middle b r' hlast
  rw [hmiddle] at hafter hlater
  exact ⟨found ++ later, by rw [hafter, List.append_assoc], hfound.append hlater⟩

theorem Visits.discard (h : Visits doc names x) : Visits doc names (discard x) := by
  intro r a r' hrun
  obtain ⟨b, hb⟩ := run_discard_ok hrun
  exact h r b r' hb

/-- A step that takes over what a walk finds. -/
theorem Visits.absorb {walk : List String → Planned α} {origin : String → Schema → Prop}
    (hdiscovers : ∀ known, Discovers doc origin known (walk known).found)
    (hnames : ∀ known a, (walk known).result = .ok a →
      doc.InPreorder known names (walk known).names) : Visits doc names (absorb walk) := by
  intro r a r' hrun
  rw [run_absorb] at hrun
  injection hrun with hresult hr'
  refine ⟨_, ?_, hnames r.typeNames a hresult⟩
  rw [← hr', typeNames_register (hdiscovers r.typeNames)]
  rfl

theorem plan_visits (doc : Document) (schema : Schema) :
    Visits doc schema.references (plan doc schema) :=
  .absorb (fun known => (planSchema_meets doc known schema).discovers)
    fun known _ hok => (planSchema_plans doc known schema).inPreorder hok

theorem register_visits {typeName : String} {schema : Schema}
    (hschema : doc.schema? typeName = some schema) :
    Visits doc [typeName] (register doc typeName schema) :=
  .absorb (fun known => planType_discovers doc known typeName schema hschema fun _ _ h => h)
    fun _ _ hok => planType_inPreorder hschema hok

theorem registerTypes_visits (typeNames : List String) :
    Visits doc typeNames (registerTypes doc typeNames) := by
  induction typeNames with
  | nil => exact .pure ()
  | cons typeName rest ih =>
      rw [registerTypes]
      split
      · intro r a r' hrun
        cases hrun
      · rename_i schema hschema
        exact (register_visits hschema).bind fun _ => ih

/-- The types that the responses of some operations refer to, one response after the other. -/
def responseReferences (list : List Endpoint) : List String :=
  (list.filterMap Endpoint.response?).flatMap fun response => response.2.references

theorem planEndpoints_visits (taken : List String) (list : List Endpoint) :
    Visits doc (responseReferences list) (planEndpoints doc taken list) := by
  induction list generalizing taken with
  | nil => exact .pure []
  | cons endpoint rest ih =>
      intro r operations r' hrun
      unfold responseReferences
      rcases planEndpoints_ok_cases hrun with ⟨hnone, hrest⟩ |
        ⟨schema, plan, planned, others, hresponse, hplan, hrest, _⟩
      · have hnoted := ih _ _ _ _ hrest
        rw [List.filterMap_cons_none hnone]
        exact hnoted
      · obtain ⟨found, hplanned, hfound⟩ := plan_visits doc schema r plan planned hplan
        obtain ⟨later, hafter, hlater⟩ := ih _ _ _ _ hrest
        have hnoted : (planned.record (.operationPlanned endpoint.name endpoint.path)).typeNames =
            r.typeNames ++ found := hplanned
        rw [hnoted] at hafter hlater
        rw [List.filterMap_cons_some hresponse, List.flatMap_cons]
        exact ⟨found ++ later, by rw [hafter, List.append_assoc], hfound.append hlater⟩

end Generation

/-! ## Calls -/

/-- The types that a call asks for. To plan a schema asks for those that it refers to. -/
def Call.requests (doc : Document) : Call → List String
  | .register typeName _ => [typeName]
  | .plan schema => schema.references
  | .planOperations => responseReferences (endpoints doc)
  | _ => []

section Calls

variable {doc : Document}

theorem Call.step_visits {call : Call} (hproper : call.Proper doc) :
    Visits doc (call.requests doc) (call.step doc) := by
  by_cases hplanning : call.IsPlanning
  · cases hplanning with
    | register => exact register_visits hproper
    | plan => exact (plan_visits doc _).discard
    | planOperations => exact (planEndpoints_visits [] _).discard
  · have hnone : call.requests doc = [] := by
      cases call with
      | register | plan | planOperations => exact absurd (by constructor) hplanning
      | _ => rfl
    rw [hnone]
    exact .of_consulted (Call.step_consults hplanning)

theorem calls_visit {calls : List Call} (hproper : ∀ call ∈ calls, call.Proper doc) :
    Visits doc (calls.flatMap (Call.requests doc)) (calls.forM (Call.step doc)) := by
  induction calls with
  | nil => exact .pure ()
  | cons call rest ih =>
      have hrest := ih fun other hmem => hproper other (List.mem_cons_of_mem _ hmem)
      exact (Call.step_visits (hproper call List.mem_cons_self)).bind fun _ => hrest

/-- The types of a registry that was empty are those that are met from some types on. -/
theorem Generation.Visits.typeNames_eq {α : Type} {x : Generation α} {names : List String} {a : α}
    {r : Registry} (h : Visits doc names x) (hrun : x.run .empty = (.ok a, r)) :
    r.typeNames = doc.preorder [] names := by
  obtain ⟨found, hfound, hpreorder⟩ := h .empty a r hrun
  rw [hfound]
  exact hpreorder.eq_preorder

end Calls

/-! ## Generations -/

/-- The types that the options ask for: the requested ones, and then those that the responses of
operations refer to. -/
def Options.asked (options : Options) (doc : Document) : List String :=
  options.requested doc ++ responseReferences (options.operations doc)

theorem planning_visits (options : Options) (doc : Document) :
    Visits doc (options.asked doc) (planning options doc) := by
  refine (registerTypes_visits (options.requested doc)).bind fun _ => ?_
  unfold Options.operations
  split
  · exact planEndpoints_visits [] (endpoints doc)
  · exact .pure []

open Classical in
/-- After any calls on a registry that was empty, of which none has failed and each has registered a type
with its component only, the types of the registry stand in the order in which they are met depth first
from the types that were asked for. The references of a schema are asked for in their order, part by part.
So the functions for types stand in the order in which they are met first from the requested types and
then from the responses of the operations, by path and method. -/
theorem typeNames_in_preorder (doc : Document) :
    (∀ (calls : List Call) r, (∀ call ∈ calls, call.Proper doc) →
      (calls.forM (Call.step doc)).run .empty = (.ok (), r) →
        r.typeNames = doc.preorder [] (calls.flatMap (Call.requests doc))) ∧
    (∀ order, doc.DepthFirst order ↔ order = doc.preorder) ∧
    (∀ (schema : Schema) name, name ∈ schema.references ↔ schema.Refers name) ∧
    (∀ (k : Keywords Schema) reference name, k.reference = some reference →
      referencedName? reference = some name → (Schema.object k).references = [name]) ∧
    (∀ (schema : Schema) parts, schema.Inside parts →
      schema.references = parts.flatMap fun part => part.2.references) ∧
    ∀ options output, generate options doc = .ok output →
      (options.operations doc).Pairwise Endpoint.Before ∧
      List.Forall₂ (fun typeName f => f.name = functionName typeName ∧
          f.params = [⟨parameterName typeName, some (.named typeName)⟩])
        ((doc.preorder [] (options.asked doc)).filter fun typeName => doc.NeedsFunction typeName)
        output.typeFunctions := by
  refine ⟨fun calls r hproper hrun => (calls_visit hproper).typeNames_eq hrun,
    fun _ => Document.depthFirst_iff, fun _ _ => mem_references_iff, fun _ _ _ => references_of_reference,
    fun _ _ => references_of_inside, fun options output hrun => ?_⟩
  obtain ⟨operations, r, hplanning⟩ := generate_ok_iff.1 ⟨output, hrun⟩
  have hfunctions := (madeFrom_of_planning hplanning hrun).registeredFunctions
  rw [(planning_visits options doc).typeNames_eq hplanning] at hfunctions
  refine ⟨?_, hfunctions.imp ?_⟩
  · unfold Options.operations
    split
    · exact endpoints_sorted doc
    · exact .nil
  · rintro typeName f ⟨own, _, rfl⟩
    exact ⟨rfl, rfl⟩

end DateReviver
