import DateReviver.Generate
import DateReviver.Proofs.OrderedMap
import Mathlib.Data.String.Basic

/-!
# The operations of a document and what they answer

The operations of a document stand by their paths, and those of one path by their methods; none is
left out and none comes twice. An operation answers with what is offered at the most preferred of the
success statuses: a shared response, or the schema of a JSON body.
-/

namespace DateReviver

open DateReviver.OpenApi

/-! ## Their order -/

/-- The place of a method among the methods of a path. -/
def OpenApi.HttpMethod.rank : HttpMethod → Nat
  | .get => 0
  | .post => 1
  | .put => 2
  | .patch => 3
  | .delete => 4

/-- An operation stands before another: by the order of their paths, then of their methods. -/
def Endpoint.Before (a b : Endpoint) : Prop :=
  a.path < b.path ∨ a.path = b.path ∧ a.method.rank < b.method.rank

/-- The name of an operation. -/
def Endpoint.name (endpoint : Endpoint) : String :=
  operationName endpoint.path endpoint.method endpoint.operation

theorem HttpMethod.mem_all (method : HttpMethod) : method ∈ HttpMethod.all := by
  cases method <;> decide

theorem HttpMethod.all_sorted : HttpMethod.all.Pairwise fun a b => a.rank < b.rank := by
  decide

/-- The paths of a document, sorted, strictly follow one another: a path is there only once. -/
theorem paths_sorted (doc : Document) :
    (doc.paths.entries.mergeSort fun a b => decide (a.1 ≤ b.1)).Pairwise fun a b => a.1 < b.1 := by
  have hle := @List.pairwise_mergeSort _ (fun a b : String × PathItem => decide (a.1 ≤ b.1))
    (fun a b c hab hbc => by
      simp only [decide_eq_true_eq] at hab hbc ⊢
      exact String.le_trans hab hbc)
    (fun a b => by simpa using String.le_total a.1 b.1) doc.paths.entries
  have hperm := List.mergeSort_perm doc.paths.entries fun a b => decide (a.1 ≤ b.1)
  have hnodup := (hperm.map Prod.fst).nodup_iff.2 doc.paths.nodup
  rw [List.Nodup, List.pairwise_map] at hnodup
  refine (hle.and hnodup).imp fun {a b} h => ?_
  have hle : a.1 ≤ b.1 := by simpa using h.1
  exact lt_of_le_of_ne hle h.2

theorem endpoints_sorted (doc : Document) : (endpoints doc).Pairwise Endpoint.Before := by
  refine List.pairwise_flatMap.2 ⟨fun entry _ => ?_, (paths_sorted doc).imp fun {a b} hpath => ?_⟩
  · refine List.pairwise_filterMap.2 (HttpMethod.all_sorted.imp fun {a b} hmethod => ?_)
    intro x hx y hy
    obtain ⟨_, _, rfl⟩ := Option.map_eq_some_iff.1 hx
    obtain ⟨_, _, rfl⟩ := Option.map_eq_some_iff.1 hy
    exact .inr ⟨rfl, hmethod⟩
  · intro x hx y hy
    obtain ⟨_, _, hx⟩ := List.mem_filterMap.1 hx
    obtain ⟨_, _, rfl⟩ := Option.map_eq_some_iff.1 hx
    obtain ⟨_, _, hy⟩ := List.mem_filterMap.1 hy
    obtain ⟨_, _, rfl⟩ := Option.map_eq_some_iff.1 hy
    exact .inl hpath

theorem mem_endpoints_iff {doc : Document} {endpoint : Endpoint} :
    endpoint ∈ endpoints doc ↔ ∃ item, doc.paths.get? endpoint.path = some item ∧
      item.operation? endpoint.method = some endpoint.operation := by
  obtain ⟨path, method, operation⟩ := endpoint
  simp only [endpoints, List.mem_flatMap, List.mem_mergeSort]
  constructor
  · rintro ⟨⟨found, item⟩, hentry, hmem⟩
    obtain ⟨other, _, hmap⟩ := List.mem_filterMap.1 hmem
    obtain ⟨_, hoperation, heq⟩ := Option.map_eq_some_iff.1 hmap
    cases heq
    exact ⟨item, OrderedMap.mem_entries_iff.1 hentry, hoperation⟩
  · rintro ⟨item, hitem, hoperation⟩
    refine ⟨(path, item), OrderedMap.mem_entries_iff.2 hitem, ?_⟩
    refine List.mem_filterMap.2 ⟨method, HttpMethod.mem_all method, ?_⟩
    simp [hoperation]

/-! ## Their responses -/

/-- What a response offers: a shared response, or else the schema of its first JSON body that has
one. -/
def OpenApi.Response.offer? (response : Response) : Option (String ⊕ Schema) :=
  match response.reference with
  | some reference => some (.inl reference)
  | none => (jsonSchema? ((response.content.map OrderedMap.entries).getD [])).map .inr

/-- What the most preferred success response offers that offers anything. -/
def OpenApi.Operation.offer? (operation : Operation) : Option (String ⊕ Schema) :=
  successStatuses.findSome? fun status => (operation.responses.get? status).bind Response.offer?

/-- An offer as an answer: a shared response is not followed. -/
def answerOf : Option (String ⊕ Schema) → Except GenerationError (Option Schema)
  | none => .ok none
  | some (.inl reference) => .error (.unsupportedReference reference)
  | some (.inr schema) => .ok (some schema)

theorem successSchemaAmong_eq (operation : Operation) (statuses : List String) :
    successSchemaAmong operation statuses = answerOf (statuses.findSome? fun status =>
      (operation.responses.get? status).bind Response.offer?) := by
  induction statuses with
  | nil => rfl
  | cons status rest ih =>
      rw [successSchemaAmong, List.findSome?_cons]
      rcases operation.responses.get? status with _ | response
      · simpa using ih
      · simp only [Option.bind_some, Response.offer?]
        rcases response.reference with _ | reference
        · rcases jsonSchema? ((response.content.map OrderedMap.entries).getD []) with _ | schema
          · simpa using ih
          · rfl
        · rfl

theorem successSchema_eq (operation : Operation) :
    successSchema operation = answerOf operation.offer? :=
  successSchemaAmong_eq operation successStatuses

/-- An operation with the schema that it answers with, if it does. -/
def Endpoint.response? (endpoint : Endpoint) : Option (Endpoint × Schema) :=
  match endpoint.operation.offer? with
  | some (.inr schema) => some (endpoint, schema)
  | _ => none

theorem Endpoint.response?_eq {endpoint : Endpoint} {chosen : Option Schema}
    (h : successSchema endpoint.operation = .ok chosen) :
    endpoint.response? = chosen.map (Prod.mk endpoint) := by
  rw [successSchema_eq] at h
  unfold response?
  rcases hoffer : endpoint.operation.offer? with _ | (reference | schema)
  · rw [hoffer] at h
    cases h
    rfl
  · rw [hoffer] at h
    cases h
  · rw [hoffer] at h
    cases h
    rfl

theorem Endpoint.response?_eq_some_iff {endpoint : Endpoint} {response : Endpoint × Schema} :
    endpoint.response? = some response ↔
      response.1 = endpoint ∧ endpoint.operation.offer? = some (.inr response.2) := by
  obtain ⟨source, schema⟩ := response
  unfold response?
  rcases endpoint.operation.offer? with _ | (reference | found)
  · simp
  · simp
  · simp [eq_comm]

/-! ## What the options ask for -/

/-- The operations that the options ask for. -/
def Options.operations (options : Options) (doc : Document) : List Endpoint :=
  if options.includeOperations then endpoints doc else []

/-- The operations that the options ask for and that answer, with the schemas of their answers. -/
def Options.responses (options : Options) (doc : Document) : List (Endpoint × Schema) :=
  (options.operations doc).filterMap Endpoint.response?

theorem Options.mem_responses_iff {options : Options} {doc : Document}
    {response : Endpoint × Schema} : response ∈ options.responses doc ↔
      response.1 ∈ options.operations doc ∧
        response.1.operation.offer? = some (.inr response.2) := by
  simp only [responses, List.mem_filterMap, Endpoint.response?_eq_some_iff]
  constructor
  · rintro ⟨endpoint, hmem, rfl, hoffer⟩
    exact ⟨hmem, hoffer⟩
  · rintro ⟨hmem, hoffer⟩
    exact ⟨response.1, hmem, rfl, hoffer⟩

/-- The responses stand in the order of their operations. -/
theorem sublist_filterMap_response? (list : List Endpoint) :
    ((list.filterMap Endpoint.response?).map Prod.fst).Sublist list := by
  induction list with
  | nil => exact .slnil
  | cons endpoint rest ih =>
      rcases hresponse : endpoint.response? with _ | response
      · rw [List.filterMap_cons_none hresponse]
        exact ih.cons endpoint
      · rw [List.filterMap_cons_some hresponse, List.map_cons,
          (Endpoint.response?_eq_some_iff.1 hresponse).1]
        exact ih.cons_cons endpoint

end DateReviver
