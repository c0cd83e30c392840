import DateReviver.Generate
import DateReviver.Proofs.Planning.Walk
import DateReviver.Proofs.Registry

/-!
# Planning follows the walk

Planning goes the way of the walk over the document. Where it succeeds it has come past everything
that was asked for, and the types that it found are those that the walk met. Where it fails it has
come to a defect, and its error is that of the defect.
-/

namespace DateReviver

open DateReviver.OpenApi

namespace Walk

/-- From a point of a walk, a result: the walk goes on to another point, or to a defect with the
error of the result. -/
def Yields (doc : Document) {α : Type} (w : Walk) (result : Except GenerationError α)
    (after : Walk) : Prop :=
  match result with
  | .ok _ => Steps doc w after
  | .error e => ∃ last, Steps doc w last ∧ Defect doc last e

/-- A reference that cannot be resolved is a defect. -/
theorem Defect.of_resolve {doc : Document} {met taken : List String} {ahead : List Item}
    {k : Keywords Schema} {reference : String} {e : GenerationError}
    (hreference : k.reference = some reference) (hresolve : doc.resolve reference = .error e) :
    Defect doc ⟨met, taken, .schema (.object k) :: ahead⟩ e := by
  unfold Document.resolve at hresolve
  split at hresolve
  · rename_i hname
    cases hresolve
    exact .unsupportedReference hreference hname
  · rename_i name hname
    split at hresolve
    · rename_i htarget
      cases hresolve
      exact .unknownSchema hreference hname htarget
    · cases hresolve

section Yields

variable {doc : Document} {α β : Type} {w next after : Walk}
  {result : Except GenerationError α}

theorem Yields.done {a : α} : Yields doc w (.ok a : Except GenerationError α) w :=
  Relation.ReflTransGen.refl

theorem Yields.fail {e : GenerationError} (h : Defect doc w e) :
    Yields doc w (.error e : Except GenerationError α) after :=
  ⟨w, .refl, h⟩

theorem Yields.steps (hsteps : Steps doc w next) (h : Yields doc next result after) :
    Yields doc w result after := by
  cases result with
  | ok a => exact hsteps.trans h
  | error e =>
      obtain ⟨last, hlast, hdefect⟩ := h
      exact ⟨last, hsteps.trans hlast, hdefect⟩

theorem Yields.step (hstep : Step doc w next) (h : Yields doc next result after) :
    Yields doc w result after :=
  h.steps (.single hstep)

theorem Yields.map {f : α → β} (h : Yields doc w result after) :
    Yields doc w (result.map f) after := by
  cases result <;> exact h

theorem Yields.ok {a : α} (h : Yields doc w result after) (hresult : result = .ok a) :
    Steps doc w after := by
  rw [hresult] at h
  exact h

theorem Yields.error {e : GenerationError} (h : Yields doc w result next)
    (hresult : result = .error e) : Yields doc w (.error e : Except GenerationError β) after := by
  rw [hresult] at h
  exact h

/-- A walk that has come past everything, or to a defect, goes nowhere else. -/
theorem Yields.error_iff {met taken : List String} {e : GenerationError}
    (h : Yields doc w result ⟨met, taken, []⟩) :
    result = .error e ↔ ∃ last, Steps doc w last ∧ Defect doc last e := by
  constructor
  · rintro rfl
    exact h
  · rintro ⟨last, hlast, hdefect⟩
    cases result with
    | ok a =>
        rw [hlast.end_unique h (fun _ => hdefect.not_step) fun _ => not_step_done] at hdefect
        exact absurd hdefect not_defect_done
    | error e' =>
        obtain ⟨other, hother, hfirst⟩ := h
        have heq := hlast.end_unique hother (fun _ => hdefect.not_step) fun _ => hfirst.not_step
        subst heq
        rw [hdefect.unique hfirst]

theorem Yields.ok_iff {met taken : List String} (h : Yields doc w result ⟨met, taken, []⟩) :
    (∃ a, result = .ok a) ↔ ∃ met taken, Steps doc w ⟨met, taken, []⟩ := by
  constructor
  · rintro ⟨a, rfl⟩
    exact ⟨met, taken, h⟩
  · rintro ⟨met', taken', hend⟩
    cases result with
    | ok a => exact ⟨a, rfl⟩
    | error e =>
        obtain ⟨last, hlast, hdefect⟩ := h
        rw [Steps.end_unique hlast hend (fun _ => hdefect.not_step) fun _ => not_step_done]
          at hdefect
        exact absurd hdefect not_defect_done

end Yields

end Walk

/-! ## Schemas -/

section Schemas

open Walk

variable {doc : Document} {known met taken : List String} {ahead : List Item}

/-- The known names, in the order in which they were met, are the same for the walk and the plan. -/
theorem mem_append_singleton_iff {name : String} (h : ∀ n, n ∈ met ↔ n ∈ known) :
    ∀ n, n ∈ met ++ [name] ↔ n ∈ name :: known := by
  intro n
  rw [List.mem_append, List.mem_singleton, List.mem_cons, h n, or_comm]

theorem mem_append_iff {more : List String} (h : ∀ n, n ∈ met ↔ n ∈ known) :
    ∀ n, n ∈ met ++ more ↔ n ∈ known ++ more := by
  intro n
  rw [List.mem_append, List.mem_append, h n]

/-- The walk after a schema in which no type is met. -/
theorem yields_none {schema : Schema} {a : Plan}
    (hstep : Step doc ⟨met, taken, .schema schema :: ahead⟩ ⟨met, taken, ahead⟩) :
    Yields doc ⟨met, taken, .schema schema :: ahead⟩ (Planned.done a).result
      ⟨met ++ (Planned.done a).names, taken, ahead⟩ := by
  rw [Planned.names, Planned.done, List.map_nil, List.append_nil]
  exact .step hstep .done

mutual

/-- Planning a schema that is next on the agenda takes the walk past it. The induction is on the
course of planning, with anything ahead. -/
theorem Plans.yields (taken : List String) : {known : List String} → {schema : Schema} → {planned : Planned Plan} →
    Plans doc known schema planned → {met : List String} → (∀ n, n ∈ met ↔ n ∈ known) →
      (ahead : List Item) → Yields doc ⟨met, taken, .schema schema :: ahead⟩ planned.result
        ⟨met ++ planned.names, taken, ahead⟩
  | _, _, _, .boolean, _, _, _ => yields_none (.inside .boolean)
  | _, _, _, .unresolved hreference hresolve, _, _, _ => .fail (.of_resolve hreference hresolve)
  | _, _, _, .known hreference hresolve hmem, _, hknown, _ => by
      obtain ⟨hname, htarget⟩ := Document.resolve_eq_ok_iff.1 hresolve
      exact yields_none (.knownReference hreference hname htarget ((hknown _).2 hmem))
  | _, _, _, .new hreference hresolve hnew h, _, hknown, ahead => by
      obtain ⟨hname, htarget⟩ := Document.resolve_eq_ok_iff.1 hresolve
      have hown := h.yields taken (mem_append_singleton_iff hknown) ahead
      rw [List.append_assoc] at hown
      exact hown.map.step
        (.newReference hreference hname htarget fun hmem => hnew ((hknown _).1 hmem))
  | _, _, _, .union hreference hother h, _, hknown, ahead =>
      (h.yields taken hknown ahead).map.step (.inside (.union hreference hother))
  | _, _, _, .anyUnion hreference hother hunion, _, _, _ =>
      yields_none (.inside (.anyUnion hreference hother hunion))
  | _, _, _, .array hplain htype hitems h, _, hknown, ahead =>
      (h.yields taken hknown ahead).map.step (.inside (.array hplain htype hitems))
  | _, _, _, .bareArray hplain htype hitems, _, _, _ =>
      yields_none (.inside (.bareArray hplain htype hitems))
  | _, _, _, .scalar hplain hscalar, _, _, _ => yields_none (.inside (.scalar hplain hscalar))
  | _, _, _, .conflict hopen hobject hproperties hvalues, _, _, _ =>
      .fail (.conflictingObjectShape hopen hobject hproperties hvalues)
  | _, _, _, .map hopen hobject hproperties hvalues h, _, hknown, ahead =>
      (h.yields taken hknown ahead).map.step (.inside (.map hopen hobject hproperties hvalues))
  | _, _, _, .object hopen hobject hproperties hvalues h, _, hknown, ahead =>
      (h.yields taken hknown ahead).map.step (.inside (.object hopen hobject hproperties hvalues))
  | _, _, _, .empty hopen hobject hproperties hvalues, _, _, _ =>
      .fail (.emptyObjectSchema hopen hobject hproperties hvalues)
  | _, _, _, .date hopen hobject _, _, _, _ => yields_none (.inside (.text hopen hobject))
  | _, _, _, .text hopen hobject _, _, _, _ => yields_none (.inside (.text hopen hobject))

/-- Planning properties that are next on the agenda takes the walk past them. -/
theorem PlansAll.yields (taken : List String) : {known : List String} → {properties : List (String × Schema)} →
    {planned : Planned (List (String × Plan))} → PlansAll doc known properties planned →
      {met : List String} → (∀ n, n ∈ met ↔ n ∈ known) → (ahead : List Item) →
        Yields doc
          ⟨met, taken,
            items (properties.map fun property => ([.property property.1], property.2)) ++ ahead⟩
          planned.result ⟨met ++ planned.names, taken, ahead⟩
  | _, _, _, .nil, met, _, _ => by
      have hnames : met ++ (Planned.done ([] : List (String × Plan))).names = met :=
        List.append_nil met
      rw [hnames]
      exact .done
  | _, _, _, .failed h hresult, _, hknown, _ => (h.yields taken hknown _).error hresult
  | _, _, _, .cons h hresult hrest, _, hknown, ahead => by
      have hothers := hrest.yields taken (mem_append_iff hknown) ahead
      rw [Planned.names, List.map_append, ← List.append_assoc]
      exact hothers.map.steps ((h.yields taken hknown _).ok hresult)

end

theorem planType_yields {typeName : String} {schema : Schema}
    (hschema : doc.schema? typeName = some schema) (hknown : ∀ n, n ∈ met ↔ n ∈ known) :
    Yields doc ⟨met, taken, .type typeName :: ahead⟩ (planType doc known typeName schema).result
      ⟨met ++ (planType doc known typeName schema).names, taken, ahead⟩ := by
  unfold planType
  split
  · rename_i hmet
    have hmem : typeName ∈ met := (hknown typeName).2 (by simpa using hmet)
    rw [Planned.names, Planned.done, List.map_nil, List.append_nil]
    exact .step (.knownType hschema hmem) .done
  · rename_i hnew
    have hmem : typeName ∉ met := fun hmem => hnew (by simpa using (hknown typeName).1 hmem)
    have hown := (planSchema_plans doc (typeName :: known) schema).yields taken
      (mem_append_singleton_iff hknown) ahead
    rw [List.append_assoc] at hown
    exact hown.map.step (.newType hschema hmem)

end Schemas

/-! ## Steps of a generation -/

namespace Generation

variable {α β : Type} {doc : Document}

/-- A step of a generation takes the walk from one agenda to another. The types that the walk has met
are those that are registered. -/
def Follows (doc : Document) (before after : List String → Walk) (x : Generation α) : Prop :=
  ∀ r, Walk.Yields doc (before r.typeNames) (x.run r).1 (after (x.run r).2.typeNames)

section Combinators

variable {before middle after : List String → Walk} {x : Generation α}

theorem Follows.pure (a : α) : Follows doc after after (pure a : Generation α) :=
  fun _ => .done

theorem Follows.note (n : Note) : Follows doc after after (note n) :=
  fun _ => .done

theorem Follows.step (hstep : ∀ met, Walk.Step doc (before met) (middle met))
    (h : Follows doc middle after x) : Follows doc before after x :=
  fun r => (h r).step (hstep r.typeNames)

theorem Follows.bind {f : α → Generation β} (hx : Follows doc before middle x)
    (hf : ∀ a, Follows doc middle after (f a)) : Follows doc before after (x >>= f) := by
  intro r
  have hfirst := hx r
  rw [run_bind]
  rcases hrun : x.run r with ⟨result, r'⟩
  rw [hrun] at hfirst
  cases result with
  | error e => exact hfirst
  | ok a => exact (hf a r').steps hfirst

theorem Follows.fail {e : GenerationError} (h : ∀ met, Walk.Defect doc (before met) e) :
    Follows doc before after (throw e : Generation α) :=
  fun r => .fail (h r.typeNames)

theorem Follows.fail_bind {e : GenerationError} {f : α → Generation β}
    (h : ∀ met, Walk.Defect doc (before met) e) :
    Follows doc before after ((throw e : Generation α) >>= f) := by
  intro r
  rw [run_bind, run_throw]
  exact .fail (h r.typeNames)

theorem Follows.ofExcept_bind {a : α} {f : α → Generation β} (h : Follows doc before after (f a)) :
    Follows doc before after ((MonadExcept.ofExcept (.ok a : Except GenerationError α)) >>= f) := by
  intro r
  rw [run_bind, run_ofExcept]
  exact h r

end Combinators

section Planning

open Walk

variable {taken : List String} {ahead : List Item}

theorem plan_follows (doc : Document) (schema : Schema) :
    Follows doc (fun met => ⟨met, taken, .schema schema :: ahead⟩)
      (fun met => ⟨met, taken, ahead⟩) (plan doc schema) := by
  intro r
  have hdiscovers := (planSchema_meets doc r.typeNames schema).discovers
  unfold plan
  rw [run_absorb, Registry.typeNames_register hdiscovers]
  exact (planSchema_plans doc r.typeNames schema).yields taken (fun _ => .rfl) ahead

theorem register_follows {typeName : String} {schema : Schema}
    (hschema : doc.schema? typeName = some schema) :
    Follows doc (fun met => ⟨met, taken, .type typeName :: ahead⟩)
      (fun met => ⟨met, taken, ahead⟩) (register doc typeName schema) := by
  intro r
  have hdiscovers := planType_discovers doc r.typeNames typeName schema hschema fun _ _ h => h
  unfold register
  rw [run_absorb, Registry.typeNames_register hdiscovers]
  exact planType_yields hschema fun _ => .rfl

theorem registerTypes_follows (typeNames : List String) :
    Follows doc (fun met => ⟨met, taken, typeNames.map .type ++ ahead⟩)
      (fun met => ⟨met, taken, ahead⟩) (registerTypes doc typeNames) := by
  induction typeNames with
  | nil => exact .pure ()
  | cons typeName rest ih =>
      rw [registerTypes]
      split
      · rename_i hschema
        exact .fail fun _ => .unknownType hschema
      · rename_i schema hschema
        exact (register_follows hschema).bind fun _ => ih

theorem planEndpoints_follows (taken : List String) (list : List Endpoint) :
    Follows doc (fun met => ⟨met, taken, list.map .endpoint⟩)
      (fun met => ⟨met, (list.map Endpoint.name).reverse ++ taken, []⟩)
      (planEndpoints doc taken list) := by
  induction list generalizing taken with
  | nil => exact .pure []
  | cons endpoint rest ih =>
      have htakenAfter : ((endpoint :: rest).map Endpoint.name).reverse ++ taken =
          (rest.map Endpoint.name).reverse ++ endpoint.name :: taken := by simp
      have hrest := ih (endpoint.name :: taken)
      rw [htakenAfter]
      obtain ⟨path, method, operation⟩ := endpoint
      rw [planEndpoints, successSchema_eq]
      dsimp only
      split
      · rename_i htaken
        rw [List.contains_iff_mem] at htaken
        exact .fail_bind fun _ => .duplicateOperation htaken
      · rename_i hnew
        rw [List.contains_iff_mem] at hnew
        rcases hoffer : operation.offer? with _ | (reference | schema)
        · refine .ofExcept_bind (.step (fun _ => .noResponse hnew hoffer) ?_)
          exact (Follows.note _).bind fun _ => hrest
        · exact .fail_bind fun _ => .sharedResponse hnew hoffer
        · refine .ofExcept_bind (.step (fun _ => .response hnew hoffer) ?_)
          refine (plan_follows doc schema).bind fun _ => (Follows.note _).bind fun _ => ?_
          exact hrest.bind fun _ => .pure _

end Planning

end Generation

end DateReviver
