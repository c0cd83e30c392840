import DateReviver.Proofs.Planning.Involvement
import DateReviver.Proofs.Planning.Locality
import Mathlib.Data.List.Perm.Basic

/-!
# What a generation does not depend on

The paths of a document, the statuses of a response and the component schemas may stand in any order,
and components that planning never looks up may be anything or be missing: a generation for the types
that are asked for by name yields the same output, or the same error.
-/

namespace DateReviver

open DateReviver.OpenApi Generation

/-! ## Documents in another order -/

/-- The same operation, with the statuses of its responses in any order. -/
structure OpenApi.Operation.Rearranged (a b : Operation) : Prop where
  operationId : b.operationId = a.operationId
  responses : b.responses.entries.Perm a.responses.entries

/-- The same methods, each with a rearranged operation. -/
def OpenApi.PathItem.Rearranged (a b : PathItem) : Prop :=
  ∀ method, Option.Rel Operation.Rearranged (a.operation? method) (b.operation? method)

/-- The same paths in any order, each with rearranged operations. -/
def OpenApi.Document.PathsRearranged (doc doc' : Document) : Prop :=
  ∃ entries : List (String × PathItem), entries.Perm doc.paths.entries ∧
    List.Forall₂ (fun a b => b.1 = a.1 ∧ a.2.Rearranged b.2) entries doc'.paths.entries

/-- The same endpoint, with a rearranged operation. -/
structure Endpoint.Rearranged (a b : Endpoint) : Prop where
  path : b.path = a.path
  method : b.method = a.method
  operation : a.operation.Rearranged b.operation

/-- For some options, two documents differ only in what planning does not depend on: in the order of
paths and statuses, and in components that the walk over the first does not look up. -/
structure OpenApi.Document.Rearranged (options : Options) (doc doc' : Document) : Prop where
  paths : doc.PathsRearranged doc'
  components : Walk.AgreesFrom doc doc' (Walk.start options doc)

/-- Maps with the same entries in any order are the same to whoever looks something up. -/
theorem OrderedMap.get?_of_perm {α : Type} {m m' : OrderedMap α}
    (h : m'.entries.Perm m.entries) (name : String) : m'.get? name = m.get? name := by
  ext value
  rw [← OrderedMap.mem_entries_iff, ← OrderedMap.mem_entries_iff]
  exact h.mem_iff

section Operations

variable {a b : Operation}

theorem OpenApi.Operation.Rearranged.successSchemaAmong_eq (h : a.Rearranged b)
    (statuses : List String) : successSchemaAmong b statuses = successSchemaAmong a statuses := by
  induction statuses with
  | nil => rfl
  | cons status rest ih =>
      rw [successSchemaAmong, successSchemaAmong, OrderedMap.get?_of_perm h.responses, ih]

theorem OpenApi.Operation.Rearranged.successSchema_eq (h : a.Rearranged b) :
    successSchema b = successSchema a :=
  h.successSchemaAmong_eq successStatuses

theorem OpenApi.Operation.Rearranged.operationName_eq (h : a.Rearranged b) (path : String)
    (method : HttpMethod) : operationName path method b = operationName path method a := by
  rw [operationName, operationName, h.operationId]

end Operations

/-! ## The operations stand in one order -/

section Endpoints

variable {doc doc' : Document}

/-- Sorted, the paths come together again. -/
theorem OpenApi.Document.PathsRearranged.sorted (h : doc.PathsRearranged doc') :
    List.Forall₂ (fun a b => b.1 = a.1 ∧ a.2.Rearranged b.2)
      (doc.paths.entries.mergeSort fun a b => decide (a.1 ≤ b.1))
      (doc'.paths.entries.mergeSort fun a b => decide (a.1 ≤ b.1)) := by
  obtain ⟨entries, hentries, hrelated⟩ := h
  have hsort := List.mergeSort_perm doc.paths.entries fun a b => decide (a.1 ≤ b.1)
  have hsort' := List.mergeSort_perm doc'.paths.entries fun a b => decide (a.1 ≤ b.1)
  obtain ⟨found, hfound, hperm⟩ := List.perm_comp_forall₂ (hsort.trans hentries.symm) hrelated
  have hkeys : found.map Prod.fst =
      (doc.paths.entries.mergeSort fun a b => decide (a.1 ≤ b.1)).map Prod.fst := by
    rw [← List.forall₂_eq_eq_eq, List.forall₂_map_left_iff, List.forall₂_map_right_iff]
    exact hfound.flip.imp fun _ _ hpair => hpair.1
  have hfoundSorted : (found.map Prod.fst).Pairwise (· < ·) := by
    rw [hkeys, List.pairwise_map]
    exact paths_sorted doc
  have heq : found = doc'.paths.entries.mergeSort fun a b => decide (a.1 ≤ b.1) :=
    (hperm.trans hsort'.symm).eq_of_pairwise
      (fun a b _ _ hab hba => absurd (hab.trans hba) (lt_irrefl a.1))
      (List.pairwise_map.1 hfoundSorted) (paths_sorted doc')
  rw [← heq]
  exact hfound

/-- The operations of rearranged paths are the same, one by one. -/
theorem OpenApi.Document.PathsRearranged.endpoints (h : doc.PathsRearranged doc') :
    List.Forall₂ Endpoint.Rearranged (endpoints doc) (endpoints doc') := by
  refine List.rel_flatMap h.sorted fun a b hitem => ?_
  refine List.rel_filterMap (R := Eq) ?_ (List.forall₂_refl _)
  rintro method _ rfl
  have hoperation := hitem.2 method
  dsimp only
  generalize a.2.operation? method = first at hoperation ⊢
  generalize b.2.operation? method = second at hoperation ⊢
  cases hoperation with
  | some hsame => exact .some ⟨hitem.1, rfl, hsame⟩
  | none => exact .none

end Endpoints

/-! ## Planning does not notice -/

section Planning

variable {options : Options} {doc doc' : Document}

theorem planEndpoints_matches {list list' : List Endpoint} (taken : List String)
    (h : List.Forall₂ Endpoint.Rearranged list list') :
    Matches doc doc' (fun met => ⟨met, taken, list.map .endpoint⟩) (planEndpoints doc taken list)
      (planEndpoints doc' taken list') := by
  induction h generalizing taken with
  | nil => exact .refl
  | @cons a b rest rest' hfirst _ ih =>
      have hrest := ih (a.name :: taken)
      obtain ⟨path, method, operation⟩ := a
      obtain ⟨path', method', operation'⟩ := b
      cases hfirst.path
      cases hfirst.method
      have hname : operationName path method operation' = operationName path method operation :=
        hfirst.operation.operationName_eq path method
      have hschema : successSchema operation' = successSchema operation :=
        hfirst.operation.successSchema_eq
      rw [planEndpoints, planEndpoints, hname, hschema, successSchema_eq]
      dsimp only
      split
      · exact .throw_bind
      · rename_i hnew
        rw [List.contains_iff_mem] at hnew
        cases hoffer : operation.offer? with
        | none =>
            refine .ofExcept_bind (.step (fun _ => .noResponse hnew hoffer) ?_)
            exact .bind (.note _) .refl fun _ => hrest
        | some offer =>
            cases offer with
            | inl reference => exact .throw_bind
            | inr schema =>
                refine .ofExcept_bind (.step (fun _ => .response hnew hoffer) ?_)
                refine .bind (plan_follows doc schema) (plan_matches schema) fun plan => ?_
                refine .bind (.note _) .refl fun _ => ?_
                exact .bind (planEndpoints_follows _ rest) hrest fun _ => .refl

theorem planning_eq_of_rearranged (hnamed : options.allTypes = false)
    (h : doc.Rearranged options doc') :
    (planning options doc').run .empty = (planning options doc).run .empty := by
  have hrequested : options.requested doc' = options.requested doc := by
    simp [Options.requested, hnamed]
  have hagree := h.components
  unfold planning
  rw [hrequested]
  unfold Walk.start Options.operations at hagree
  refine Matches.bind (registerTypes_follows (options.requested doc))
    (registerTypes_matches (options.requested doc)) (fun _ => ?_) .empty hagree
  split
  · exact planEndpoints_matches [] h.paths.endpoints
  · exact .refl

/-- Whatever a walk looks up, the options are about. -/
theorem Walk.LooksUp.involves {w : Walk} {name : String} (h : w.LooksUp name)
    (hsteps : Walk.Steps doc (Walk.start options doc) w) : options.Involves doc name := by
  have hpertinent := hsteps.invariant (fun _ _ => Walk.Step.pertinent) Walk.pertinent_start
  cases h with
  | type => exact hpertinent.ahead _ List.mem_cons_self _ rfl
  | reference hreference hname =>
      exact hpertinent.ahead _ List.mem_cons_self _ (refers_of_reference hreference hname)

end Planning

/-- Generation goes the same way, step by step. -/
theorem generation_eq_of_rearranged {options : Options} {doc doc' : Document}
    (hnamed : options.allTypes = false) (h : doc.Rearranged options doc') :
    (generation options doc').run .empty = (generation options doc).run .empty := by
  have hwriting : writing options doc' = writing options doc := by
    unfold writing
    simp [Options.requested, hnamed]
  rw [generation_eq, generation_eq, run_bind, run_bind, planning_eq_of_rearranged hnamed h, hwriting]

/-- A generation for types that are asked for by name does not depend on the order of paths, statuses
and components, nor on components that its planning does not look up. It yields the same output in
the same order, or the same error. -/
theorem generate_eq_of_rearranged {options : Options} {doc doc' : Document}
    (hnamed : options.allTypes = false) (h : doc.Rearranged options doc') :
    generate options doc' = generate options doc :=
  congrArg Prod.fst (generation_eq_of_rearranged hnamed h)

/-! ## A document in two orders -/

/-- A response with a JSON body. -/
def responding (schema : Schema) : Response :=
  ⟨none, some (.ofList [("application/json", ⟨some schema⟩)])⟩

/-- An operation without an identifier, as the only one of its path. -/
def getting (responses : List (String × Response)) : PathItem :=
  ⟨some ⟨none, .ofList responses⟩, none, none, none, none⟩

/-- Two paths, one of which answers with a component, and a component that is never referred to. -/
def ordered : Document :=
  ⟨.ofList
    [("/at", getting [("200", responding (.referring "At")), ("404", ⟨none, none⟩)]),
      ("/now", getting [("200", responding .dateTime)])],
    some ⟨some (.ofList [("At", .dateTime), ("Draft", .boolean true)])⟩⟩

/-- The same with everything in another order, and another component that is never referred to. -/
def reordered : Document :=
  ⟨.ofList
    [("/now", getting [("200", responding .dateTime)]),
      ("/at", getting [("404", ⟨none, none⟩), ("200", responding (.referring "At"))])],
    some ⟨some (.ofList [("Note", .referring "Draft"), ("At", .dateTime)])⟩⟩

theorem not_refers_dateTime {typeName : String} : ¬ Schema.dateTime.Refers typeName := by
  have hinside : Schema.dateTime.Inside [] := .text (isOpen_of_untyped ⟨rfl, rfl, rfl⟩ rfl) rfl
  rw [refers_iff_of_inside hinside]
  simp

theorem offer?_ordered {endpoint : Endpoint} {schema : Schema} (hmem : endpoint ∈ endpoints ordered)
    (hoffer : endpoint.operation.offer? = some (.inr schema)) :
    schema = .referring "At" ∨ schema = .dateTime := by
  obtain ⟨item, hitem, hoperation⟩ := mem_endpoints_iff.1 hmem
  obtain ⟨path, method, operation⟩ := endpoint
  cases List.mem_pair.1 (OrderedMap.mem_entries_iff.2 hitem) with
  | inl hfirst =>
      cases hfirst
      cases method <;> cases hoperation
      cases hoffer
      exact .inl rfl
  | inr hsecond =>
      cases hsecond
      cases method <;> cases hoperation
      cases hoffer
      exact .inr rfl

/-- The only type that the document refers to. -/
theorem eq_of_involves_ordered {typeName : String} (h : Options.Involves {} ordered typeName) :
    typeName = "At" := by
  induction h with
  | requested hmem => cases hmem
  | @response endpoint schema typeName hmem hoffer hrefers =>
      have hschema := offer?_ordered hmem hoffer
      have hname : referencedName? (componentRoot ++ "At") = some "At" := by decide
      cases hschema with
      | inl hreferring =>
          subst hreferring
          exact eq_of_refers_of_reference rfl hname hrefers
      | inr hdate =>
          subst hdate
          exact absurd hrefers not_refers_dateTime
  | component _ hschema hrefers ih =>
      subst ih
      cases hschema
      exact absurd hrefers not_refers_dateTime

theorem rearranged_getting {responses responses' : List (String × Response)}
    (h : (OrderedMap.ofList responses').entries.Perm (OrderedMap.ofList responses).entries) :
    (getting responses).Rearranged (getting responses') := by
  intro method
  cases method with
  | get => exact .some ⟨rfl, h⟩
  | post | put | patch | delete => exact .none

theorem rearranged_ordered : ordered.Rearranged {} reordered := by
  constructor
  · refine ⟨_, .swap _ _ [], .cons ⟨rfl, ?_⟩ (.cons ⟨rfl, ?_⟩ .nil)⟩
    · exact rearranged_getting (.refl _)
    · exact rearranged_getting (.swap _ _ [])
  · intro w name hsteps hlooks
    rw [eq_of_involves_ordered (hlooks.involves hsteps)]
    rfl

/-- Both orders have the same functions. -/
theorem generate_eq_of_rearranged_ordered : generate {} reordered = generate {} ordered :=
  generate_eq_of_rearranged rfl rearranged_ordered

end DateReviver
