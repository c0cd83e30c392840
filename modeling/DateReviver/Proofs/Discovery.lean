import DateReviver.Proofs.Failure
import DateReviver.Proofs.Planning.Involvement
import Mathlib.Data.List.Nodup

/-!
# Which operations are planned

An operation is planned if one of its success responses has a JSON body, and with the schema of the
first such body: by the order of the statuses, and in one response by the order of its media types. A
shared response that comes before it is an error. The names of all operations are distinct, also of those
that are not planned.
-/

namespace DateReviver

open DateReviver.OpenApi Generation Registry

/-! ## The choice of a schema -/

/-- The first JSON body of a response that has a schema has this one. -/
def OpenApi.Response.HasBody (response : Response) (schema : Schema) : Prop :=
  ∃ content before mediaType after, response.content = some content ∧
    content.entries = before ++ (mediaType, ⟨some schema⟩) :: after ∧
    isJsonMediaType mediaType = true ∧
    ∀ entry ∈ before, isJsonMediaType entry.1 = true → entry.2.schema = none

/-- The search for a schema ends at a response: it is a shared one, or it has a body. -/
def OpenApi.Response.Settles (response : Response) : Prop :=
  response.reference.isSome ∨ ∃ schema, response.HasBody schema

/-- The response at which the search for a schema ends, by the order of the success statuses. -/
def OpenApi.Operation.SettledBy (operation : Operation) (response : Response) : Prop :=
  ∃ before status after, successStatuses = before ++ status :: after ∧
    operation.responses.get? status = some response ∧ response.Settles ∧
    ∀ earlier ∈ before, ∀ passed, operation.responses.get? earlier = some passed → ¬ passed.Settles

/-- The search for a schema finds one. -/
def OpenApi.Operation.Chooses (operation : Operation) (schema : Schema) : Prop :=
  ∃ response, operation.SettledBy response ∧ response.reference = none ∧ response.HasBody schema

/-- The search for a schema ends at a shared response. -/
def OpenApi.Operation.MeetsShared (operation : Operation) (reference : String) : Prop :=
  ∃ response, operation.SettledBy response ∧ response.reference = some reference

section Choice

variable {response : Response} {operation : Operation} {schema : Schema} {reference : String}

theorem jsonSchema?_eq_some_iff {content : List (String × MediaType)} :
    jsonSchema? content = some schema ↔ ∃ before mediaType after,
      content = before ++ (mediaType, ⟨some schema⟩) :: after ∧ isJsonMediaType mediaType = true ∧
        ∀ entry ∈ before, isJsonMediaType entry.1 = true → entry.2.schema = none := by
  unfold jsonSchema?
  rw [List.findSome?_eq_some_iff]
  constructor
  · rintro ⟨before, ⟨mediaType, ⟨found⟩⟩, after, hcontent, hfound, hbefore⟩
    obtain ⟨hjson, rfl⟩ : isJsonMediaType mediaType = true ∧ found = some schema := by
      simpa using hfound
    exact ⟨before, mediaType, after, hcontent, hjson, by simpa using hbefore⟩
  · rintro ⟨before, mediaType, after, hcontent, hjson, hbefore⟩
    exact ⟨before, (mediaType, ⟨some schema⟩), after, hcontent, by simp [hjson], by simpa using hbefore⟩

theorem hasBody_iff : response.HasBody schema ↔
    jsonSchema? ((response.content.map OrderedMap.entries).getD []) = some schema := by
  unfold Response.HasBody
  rcases response.content with _ | content
  · simp [jsonSchema?]
  · rw [Option.map_some, Option.getD_some, jsonSchema?_eq_some_iff]
    simp

theorem offer?_eq_shared_iff :
    response.offer? = some (.inl reference) ↔ response.reference = some reference := by
  unfold Response.offer?
  rcases response.reference with _ | other <;> simp

theorem offer?_eq_body_iff :
    response.offer? = some (.inr schema) ↔ response.reference = none ∧ response.HasBody schema := by
  rw [hasBody_iff]
  unfold Response.offer?
  rcases response.reference with _ | other <;> simp

theorem settles_iff_offer? : response.Settles ↔ response.offer?.isSome := by
  simp only [Response.Settles, hasBody_iff, Response.offer?]
  rcases response.reference with _ | other
  · simp [Option.isSome_iff_exists]
  · simp

/-- What an operation offers is offered by the response at which the search ends. -/
theorem operation_offer?_eq_some_iff {offer : String ⊕ Schema} :
    operation.offer? = some offer ↔
      ∃ response, operation.SettledBy response ∧ response.offer? = some offer := by
  unfold Operation.offer?
  rw [List.findSome?_eq_some_iff]
  simp only [Option.bind_eq_some_iff, Option.bind_eq_none_iff]
  constructor
  · rintro ⟨before, status, after, hstatuses, ⟨response, hresponse, hoffer⟩, hbefore⟩
    refine ⟨response, ⟨before, status, after, hstatuses, hresponse, ?_, ?_⟩, hoffer⟩
    · rw [settles_iff_offer?, hoffer]
      rfl
    · intro earlier hearlier passed hpassed
      simp [settles_iff_offer?, hbefore earlier hearlier passed hpassed]
  · rintro ⟨response, ⟨before, status, after, hstatuses, hresponse, _, hbefore⟩, hoffer⟩
    refine ⟨before, status, after, hstatuses, ⟨response, hresponse, hoffer⟩, ?_⟩
    intro earlier hearlier passed hpassed
    simpa [settles_iff_offer?] using hbefore earlier hearlier passed hpassed

theorem chooses_iff : operation.Chooses schema ↔ operation.offer? = some (.inr schema) := by
  simp only [operation_offer?_eq_some_iff, offer?_eq_body_iff, Operation.Chooses]

theorem meetsShared_iff :
    operation.MeetsShared reference ↔ operation.offer? = some (.inl reference) := by
  simp only [operation_offer?_eq_some_iff, offer?_eq_shared_iff, Operation.MeetsShared]

theorem successSchema_eq_some_iff :
    successSchema operation = .ok (some schema) ↔ operation.Chooses schema := by
  rw [successSchema_eq, chooses_iff]
  rcases operation.offer? with _ | (reference | found) <;> simp [answerOf]

theorem successSchema_eq_error_iff {e : GenerationError} : successSchema operation = .error e ↔
    ∃ reference, e = .unsupportedReference reference ∧ operation.MeetsShared reference := by
  simp only [successSchema_eq, meetsShared_iff]
  rcases operation.offer? with _ | (reference | found)
  · simp [answerOf]
  · simp [answerOf, eq_comm]
  · simp [answerOf]

end Choice

/-! ## What is planned -/

/-- The operation stands in the document, at this path and under this method. -/
def Endpoint.StandsIn (endpoint : Endpoint) (doc : Document) : Prop :=
  ∃ item, doc.paths.get? endpoint.path = some item ∧
    item.operation? endpoint.method = some endpoint.operation

/-- By the order of paths, then of methods. -/
def OperationPlan.Before (a b : OperationPlan) : Prop :=
  a.path < b.path ∨ a.path = b.path ∧ a.method.rank < b.method.rank

/-- An operation as it is planned between two registries, with what planning its schema returned. -/
structure OperationPlan.PlannedFor (doc : Document) (r r' : Registry)
    (response : Endpoint × Schema) (operation : OperationPlan) : Prop where
  path : operation.path = response.1.path
  method : operation.method = response.1.method
  name : operation.name = operationName response.1.path response.1.method response.1.operation
  responseType : operation.responseType = DateReviver.responseType response.2
  plan : ∃ before after, r.Extends before ∧
    (Generation.plan doc response.2).run before = (.ok operation.plan, after) ∧ after.Extends r'

section Planned

variable {doc : Document} {r r' r'' : Registry} {response : Endpoint × Schema}
  {operation : OperationPlan}

theorem OperationPlan.PlannedFor.of_extends (h : operation.PlannedFor doc r' r'' response)
    (hextends : r.Extends r') : operation.PlannedFor doc r r'' response := by
  obtain ⟨before, after, hbefore, hrun, hafter⟩ := h.plan
  exact ⟨h.path, h.method, h.name, h.responseType, before, after, hextends.trans hbefore, hrun, hafter⟩

theorem planEndpoints_plannedFor {taken : List String} {list : List Endpoint}
    {operations : List OperationPlan}
    (hrun : (planEndpoints doc taken list).run r = (.ok operations, r')) :
    r.Extends r' ∧
      List.Forall₂ (OperationPlan.PlannedFor doc r r') (list.filterMap Endpoint.response?)
        operations := by
  induction list generalizing taken r operations with
  | nil =>
      cases hrun
      exact ⟨.of_methods rfl, .nil⟩
  | cons endpoint rest ih =>
      rcases planEndpoints_ok_cases hrun with ⟨hnone, hrest⟩ |
        ⟨schema, plan, planned, others, hresponse, hplan, hrest, rfl⟩
      · obtain ⟨hextends, hall⟩ := ih hrest
        have hgrows := extends_record r (.noJsonResponse endpoint.path endpoint.method)
        rw [List.filterMap_cons_none hnone]
        exact ⟨hgrows.trans hextends, hall.imp fun _ _ h => h.of_extends hgrows⟩
      · obtain ⟨hextends, hall⟩ := ih hrest
        have hafter := (extends_record planned (.operationPlanned endpoint.name endpoint.path)).trans
          hextends
        have hgrows := (plan_grows hplan).1
        rw [List.filterMap_cons_some hresponse]
        exact ⟨hgrows.trans hafter, .cons ⟨rfl, rfl, rfl, rfl, r, planned, .of_methods rfl, hplan, hafter⟩
          (hall.imp fun _ _ h => h.of_extends (hgrows.trans (extends_record planned _)))⟩

/-- What is planned for sorted operations is sorted. -/
theorem pairwise_before {operations : List OperationPlan} {list : List Endpoint}
    (hlist : list.Pairwise Endpoint.Before)
    (h : List.Forall₂ (OperationPlan.PlannedFor doc r r') (list.filterMap Endpoint.response?)
      operations) : operations.Pairwise OperationPlan.Before := by
  have hsorted := hlist.sublist (sublist_filterMap_response? list)
  refine pairwise_of_forall₂ h (fun a a' b b' hb hb' hbefore => ?_) (List.pairwise_map.1 hsorted)
  unfold OperationPlan.Before
  rw [hb.path, hb'.path, hb.method, hb'.method]
  exact hbefore

end Planned

/-! ## The names of operations -/

/-- An operation on the agenda of a walk. -/
def Walk.Item.endpoint? : Walk.Item → Option Endpoint
  | .endpoint operation => some operation
  | .type _ | .schema _ => none

/-- A walk over a list of operations has taken the names of those that it has passed, and the others
lie ahead of it. -/
def Walk.PassesThrough (list : List Endpoint) (w : Walk) : Prop :=
  ∃ passed : List Endpoint, w.taken = (passed.map Endpoint.name).reverse ∧
    passed ++ w.ahead.filterMap Walk.Item.endpoint? = list

section Names

variable {doc : Document} {r r' : Registry} {list : List Endpoint}

/-- No operation stands among the schemas that are put on the agenda. -/
theorem Walk.filterMap_items (parts : List (List Access × Schema)) :
    (Walk.items parts).filterMap Walk.Item.endpoint? = [] := by
  simp [Walk.items, Walk.Item.endpoint?]

theorem Walk.Step.passesThrough {w w' : Walk} (hstep : Walk.Step doc w w')
    (h : w.PassesThrough list) : w'.PassesThrough list := by
  obtain ⟨passed, htaken, hlist⟩ := h
  cases hstep with
  | @noResponse _ _ _ operation | @response _ _ _ operation =>
      refine ⟨passed ++ [operation], by simpa using htaken, ?_⟩
      simpa [Walk.Item.endpoint?, List.filterMap_cons] using hlist
  | inside =>
      refine ⟨passed, htaken, ?_⟩
      simpa [Walk.Item.endpoint?, List.filterMap_cons, Walk.filterMap_items] using hlist
  | knownType | newType | knownReference | newReference =>
      refine ⟨passed, htaken, ?_⟩
      simpa [Walk.Item.endpoint?, List.filterMap_cons] using hlist

theorem planOperations_yields (doc : Document) (r : Registry) :
    ∃ after, Walk.Yields doc ⟨r.typeNames, [], (endpoints doc).map .endpoint⟩
      ((planOperations doc).run r).1 ⟨after, ((endpoints doc).map Endpoint.name).reverse, []⟩ := by
  have hyields := @planEndpoints_follows doc [] (endpoints doc) r
  rw [List.append_nil] at hyields
  exact ⟨_, hyields⟩

/-- If operations are planned, all of them have distinct names. -/
theorem nodup_names_of_planOperations {operations : List OperationPlan}
    (hrun : (planOperations doc).run r = (.ok operations, r')) :
    ((endpoints doc).map Endpoint.name).Nodup := by
  obtain ⟨after, hyields⟩ := planOperations_yields doc r
  rw [hrun] at hyields
  have hnodup := (hyields.ok rfl).invariant (fun _ _ => Walk.Step.nodup_taken) List.nodup_nil
  exact List.nodup_reverse.1 hnodup

/-- The name in the error is that of an operation and of one before it. -/
theorem exists_rivals_of_planOperations {name : String}
    (hrun : (planOperations doc).run r = (.error (.duplicateOperation name), r')) :
    ∃ a ∈ endpoints doc, ∃ b ∈ endpoints doc, a.Before b ∧ a.name = name ∧ b.name = name := by
  obtain ⟨after, hyields⟩ := planOperations_yields doc r
  rw [hrun] at hyields
  obtain ⟨last, hlast, hdefect⟩ := hyields
  have hstart : Walk.PassesThrough (endpoints doc)
      ⟨r.typeNames, [], (endpoints doc).map .endpoint⟩ := by
    refine ⟨[], rfl, ?_⟩
    rw [List.nil_append, List.filterMap_map]
    exact List.filterMap_some
  obtain ⟨passed, htaken, hlist⟩ := hlast.invariant (fun _ _ => Walk.Step.passesThrough) hstart
  cases hdefect with
  | @duplicateOperation _ _ _ endpoint hmem =>
      dsimp only at htaken
      rw [htaken, List.mem_reverse] at hmem
      obtain ⟨earlier, hearlier, hname⟩ := List.mem_map.1 hmem
      obtain ⟨later, hsplit⟩ : ∃ later, endpoints doc = passed ++ endpoint :: later := ⟨_, hlist.symm⟩
      have hsorted := endpoints_sorted doc
      rw [hsplit, List.pairwise_append] at hsorted
      rw [hsplit]
      exact ⟨earlier, List.mem_append_left _ hearlier, endpoint, by simp,
        hsorted.2.2 earlier hearlier endpoint List.mem_cons_self, hname, rfl⟩

end Names

/-- Planning the operations of a document, from any registry. If it succeeds, what it returns is sorted
by path and then by method, and contains an operation exactly if a schema can be chosen for it, under its
own name and with what planning this schema returned on the way; and no two operations of the document,
planned or not, have one name. A schema is chosen by status and then by media type, and the choice fails
exactly if it comes to a shared response first. An operation is rejected for its name only if another
operation before it has the same. -/
theorem operations_discovered (doc : Document) (r : Registry) :
    (∀ operations r', (planOperations doc).run r = (.ok operations, r') →
      operations.Pairwise OperationPlan.Before ∧
      (∀ path method,
        (∃ planned ∈ operations, planned.path = path ∧ planned.method = method) ↔
          ∃ operation schema, Endpoint.StandsIn ⟨path, method, operation⟩ doc ∧
            operation.Chooses schema) ∧
      (∀ planned ∈ operations, ∃ endpoint schema, endpoint.StandsIn doc ∧
        endpoint.operation.Chooses schema ∧ planned.PlannedFor doc r r' (endpoint, schema)) ∧
      ∀ a b : Endpoint, a.StandsIn doc → b.StandsIn doc → a.name = b.name → a = b) ∧
    (∀ operation : Operation,
      (∀ schema, successSchema operation = .ok (some schema) ↔ operation.Chooses schema) ∧
      ∀ e, successSchema operation = .error e ↔
        ∃ reference, e = .unsupportedReference reference ∧ operation.MeetsShared reference) ∧
    ∀ name r', (planOperations doc).run r = (.error (.duplicateOperation name), r') →
      ∃ a b : Endpoint, a.StandsIn doc ∧ b.StandsIn doc ∧ a.Before b ∧
        a.name = name ∧ b.name = name := by
  refine ⟨fun operations r' hrun => ?_, fun _ =>
    ⟨fun _ => successSchema_eq_some_iff, fun _ => successSchema_eq_error_iff⟩, fun name r' hrun => ?_⟩
  · obtain ⟨_, hall⟩ := planEndpoints_plannedFor hrun
    have hresponses : ∀ endpoint schema, (endpoint, schema) ∈ (endpoints doc).filterMap
        Endpoint.response? ↔ endpoint.StandsIn doc ∧ endpoint.operation.Chooses schema := by
      intro endpoint schema
      simp [Endpoint.response?_eq_some_iff, mem_endpoints_iff, chooses_iff, Endpoint.StandsIn]
    refine ⟨pairwise_before (endpoints_sorted doc) hall, fun path method => ⟨?_, ?_⟩,
      fun planned hmem => ?_, fun a b ha hb hname => ?_⟩
    · rintro ⟨planned, hmem, rfl, rfl⟩
      obtain ⟨⟨endpoint, schema⟩, hmem, hplanned⟩ := exists_of_mem_right hall hmem
      obtain ⟨hstands, hchooses⟩ := (hresponses endpoint schema).1 hmem
      rw [hplanned.path, hplanned.method]
      exact ⟨endpoint.operation, schema, hstands, hchooses⟩
    · rintro ⟨operation, schema, hstands, hchooses⟩
      obtain ⟨planned, hmem, hplanned⟩ :=
        exists_of_mem_left hall ((hresponses ⟨path, method, operation⟩ schema).2 ⟨hstands, hchooses⟩)
      exact ⟨planned, hmem, hplanned.path, hplanned.method⟩
    · obtain ⟨⟨endpoint, schema⟩, hmem, hplanned⟩ := exists_of_mem_right hall hmem
      obtain ⟨hstands, hchooses⟩ := (hresponses endpoint schema).1 hmem
      exact ⟨endpoint, schema, hstands, hchooses, hplanned⟩
    · exact List.inj_on_of_nodup_map (nodup_names_of_planOperations hrun) (mem_endpoints_iff.2 ha)
        (mem_endpoints_iff.2 hb) hname
  · obtain ⟨a, ha, b, hb, hbefore, hnames⟩ := exists_rivals_of_planOperations hrun
    exact ⟨a, b, mem_endpoints_iff.1 ha, mem_endpoints_iff.1 hb, hbefore, hnames⟩

end DateReviver
