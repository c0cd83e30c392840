import DateReviver.Proofs.Generate
import DateReviver.Proofs.Planning.OpenTypes
import Mathlib.Data.List.Nodup

/-!
# The life of a type in a session

A type gets its place in the registry when it is first referred to, and keeps it. It is building until
its schema is planned, then it is built, and once it has been asked for its emptiness it is settled.
A call that fails leaves those types building that were open when the error arose, for good: no later
call plans them again.
-/

namespace DateReviver

open DateReviver.OpenApi Generation

/-- How far a type has come. -/
inductive Stage where
  /-- Its planning is under way or has failed. -/
  | building
  /-- It has its plan. -/
  | built
  /-- It has its plan, and it is decided whether it is empty. -/
  | settled (empty : Bool)
deriving DecidableEq, Repr

namespace Registry

/-- The number of a type: its place in the order of first reference. -/
def id? (r : Registry) (typeName : String) : Option Nat :=
  r.typeNames.idxOf? typeName

def stage? (r : Registry) (typeName : String) : Option Stage :=
  (r.methods.get? typeName).map fun own =>
    match own, r.verdicts.get? typeName with
    | none, _ => .building
    | some _, none => .built
    | some _, some empty => .settled empty

/-- The types that a plan names have their numbers in the registry. -/
def Numbers (r : Registry) (plan : Plan) : Prop :=
  ∀ typeName, plan.Mentions typeName → ∃ i, r.id? typeName = some i ∧ i < r.methods.size

/-- The types have distinct names and stand at their numbers, and so do those that plans name. -/
structure Ordered (r : Registry) : Prop where
  nodup : r.typeNames.Nodup
  id? : ∀ typeName i, r.id? typeName = some i ↔ r.typeNames[i]? = some typeName
  plans : ∀ typeName plan, r.plan? typeName = some plan → r.Numbers plan

/-- A type has in another registry the number, the plan and the stage that it has in this one. -/
structure Keeps (r r' : Registry) (typeName : String) : Prop where
  id? : r'.id? typeName = r.id? typeName
  plan? : r'.plan? typeName = r.plan? typeName
  stage? : r'.stage? typeName = r.stage? typeName

end Registry

/-! ## Calls that fail -/

/-- Planning operations in their order comes to an error, with these types open. -/
inductive FailsAt (doc : Document) : (taken known : List String) → List Endpoint →
    GenerationError → List (String × Schema) → Prop
  | refused {taken known : List String} {endpoint : Endpoint} {rest : List Endpoint}
      {e : GenerationError} (h : Walk.Defect doc ⟨[], taken, [.endpoint endpoint]⟩ e) :
      FailsAt doc taken known (endpoint :: rest) e []
  | response {taken known : List String} {endpoint : Endpoint} {rest : List Endpoint}
      {schema : Schema} {e : GenerationError} {opened : List (String × Schema)}
      (htaken : endpoint.name ∉ taken) (hoffer : endpoint.operation.offer? = some (.inr schema))
      (h : Fails doc known schema e opened) : FailsAt doc taken known (endpoint :: rest) e opened
  | noResponse {taken known : List String} {endpoint : Endpoint} {rest : List Endpoint}
      {e : GenerationError} {opened : List (String × Schema)} (htaken : endpoint.name ∉ taken)
      (hoffer : endpoint.operation.offer? = none)
      (hrest : FailsAt doc (endpoint.name :: taken) known rest e opened) :
      FailsAt doc taken known (endpoint :: rest) e opened
  | later {taken known : List String} {endpoint : Endpoint} {rest : List Endpoint}
      {schema : Schema} {own : Planned Plan} {plan : Plan} {e : GenerationError}
      {opened : List (String × Schema)} (htaken : endpoint.name ∉ taken)
      (hoffer : endpoint.operation.offer? = some (.inr schema)) (h : Plans doc known schema own)
      (hresult : own.result = .ok plan)
      (hrest : FailsAt doc (endpoint.name :: taken) (known ++ own.names) rest e opened) :
      FailsAt doc taken known (endpoint :: rest) e opened

/-- A call comes to an error, with these types open. A type that is registered is the outermost. -/
inductive Call.Fails (doc : Document) (known : List String) :
    Call → GenerationError → List (String × Schema) → Prop
  | register {typeName : String} {schema : Schema} {e : GenerationError}
      {opened : List (String × Schema)} (hnew : typeName ∉ known)
      (h : DateReviver.Fails doc (typeName :: known) schema e opened) :
      Fails doc known (.register typeName schema) e ((typeName, schema) :: opened)
  | plan {schema : Schema} {e : GenerationError} {opened : List (String × Schema)}
      (h : DateReviver.Fails doc known schema e opened) : Fails doc known (.plan schema) e opened
  | planOperations {e : GenerationError} {opened : List (String × Schema)}
      (h : FailsAt doc [] known (endpoints doc) e opened) : Fails doc known .planOperations e opened

section Linked

variable {doc : Document} {known : List String} {e : GenerationError}
  {opened : List (String × Schema)}

theorem FailsAt.linked {taken : List String} {list : List Endpoint}
    (h : FailsAt doc taken known list e opened) : Linked doc opened := by
  induction h with
  | refused => exact .nil
  | response _ _ h => exact h.linked_opened
  | noResponse _ _ _ ih => exact ih
  | later _ _ _ _ _ ih => exact ih

theorem Call.Fails.linked {call : Call} (h : call.Fails doc known e opened) :
    Linked doc opened := by
  cases h with
  | register _ h => exact h.linked _
  | plan h => exact h.linked_opened
  | planOperations h => exact h.linked

end Linked

/-! ## Appending types -/

namespace Registry

/-- A registry with more types after those of another, and nothing else decided. -/
structure Appends (r r' : Registry) (found : List (String × Option Plan)) : Prop where
  entries : r'.methods.entries = r.methods.entries ++ found
  verdicts : r'.verdicts = r.verdicts

variable {r r' r'' : Registry} {found more : List (String × Option Plan)} {typeName : String}

theorem Appends.refl (r : Registry) : r.Appends r [] :=
  ⟨(List.append_nil _).symm, rfl⟩

theorem Appends.trans (h : r.Appends r' found) (h' : r'.Appends r'' more) :
    r.Appends r'' (found ++ more) := by
  constructor
  · rw [h'.entries, h.entries, List.append_assoc]
  · rw [h'.verdicts, h.verdicts]

theorem appends_register {doc : Document} {origin : String → Schema → Prop}
    (h : Discovers doc origin r.typeNames found) : r.Appends (r.register found) found :=
  ⟨entries_register h, rfl⟩

theorem Appends.typeNames (h : r.Appends r' found) :
    r'.typeNames = r.typeNames ++ found.map Prod.fst := by
  rw [Registry.typeNames, OrderedMap.keys, h.entries, List.map_append]
  rfl

theorem Appends.get?_of_mem (h : r.Appends r' found) (hmem : typeName ∈ r.typeNames) :
    r'.methods.get? typeName = r.methods.get? typeName := by
  obtain ⟨own, hown⟩ := OrderedMap.mem_keys_iff.1 hmem
  rw [hown, OrderedMap.get?, h.entries, List.lookup_append]
  rw [OrderedMap.get?] at hown
  rw [hown]
  rfl

theorem Appends.get?_of_found (h : r.Appends r' found) {own : Option Plan}
    (hmem : (typeName, own) ∈ found) : r'.methods.get? typeName = some own := by
  refine OrderedMap.mem_entries_iff.1 ?_
  rw [h.entries]
  exact List.mem_append_right _ hmem

/-- In a list without repetition, a name is found at its place only. -/
theorem id?_eq_some_iff {i : Nat} : r.id? typeName = some i ↔ r.typeNames[i]? = some typeName := by
  unfold id?
  rw [List.idxOf?_eq_some_iff, List.getElem?_eq_some_iff]
  constructor
  · rintro ⟨hlt, heq, _⟩
    exact ⟨hlt, heq⟩
  · rintro ⟨hlt, heq⟩
    refine ⟨hlt, heq, fun j hj hsame => ?_⟩
    have hindex := (List.Nodup.getElem_inj_iff r.methods.nodup).1 (hsame.trans heq.symm)
    omega

theorem exists_id? (hmem : typeName ∈ r.typeNames) :
    ∃ i, r.id? typeName = some i ∧ i < r.methods.size := by
  obtain ⟨i, hlt, heq⟩ := List.mem_iff_getElem.1 hmem
  refine ⟨i, id?_eq_some_iff.2 (List.getElem?_eq_some_iff.2 ⟨hlt, heq⟩), ?_⟩
  rwa [Registry.typeNames, OrderedMap.keys, List.length_map] at hlt

/-- A plan with registered types only has numbers for them. -/
theorem Numbers.of_knows {plan : Plan} (hknows : r.Knows plan) : r.Numbers plan :=
  fun _ hmentions => exists_id? (hmentions.mem_typeNames hknows)

theorem Sound.ordered (h : r.Sound) : r.Ordered :=
  ⟨r.methods.nodup, fun _ _ => id?_eq_some_iff, fun typeName plan hplan =>
    .of_knows (h.knows typeName plan hplan)⟩

/-- Nothing is decided about a type that is not there. -/
theorem Sound.verdict?_of_not_mem (h : r.Sound) (hnew : typeName ∉ r.typeNames) :
    r.verdicts.get? typeName = none := by
  rcases hverdict : r.verdicts.get? typeName with _ | (_ | _)
  · rfl
  · obtain ⟨_, hplan, _⟩ := h.decides.holdsDate typeName hverdict
    exact absurd (mem_typeNames_of_plan? hplan) hnew
  · obtain ⟨_, hplan, _⟩ := h.decides.empty typeName hverdict
    exact absurd (mem_typeNames_of_plan? hplan) hnew

theorem Appends.keeps (h : r.Appends r' found) (hmem : typeName ∈ r.typeNames) :
    r.Keeps r' typeName := by
  have hget := h.get?_of_mem hmem
  constructor
  · obtain ⟨i, hid, _⟩ := exists_id? hmem
    rw [hid, id?_eq_some_iff, h.typeNames]
    rw [id?_eq_some_iff] at hid
    exact List.getElem?_append_left (List.getElem?_eq_some_iff.1 hid).1 ▸ hid
  · rw [Registry.plan?, Registry.plan?, hget]
  · rw [Registry.stage?, Registry.stage?, hget, h.verdicts]

/-- A type that was found is built if it has a plan, and building otherwise. -/
theorem Appends.stage?_of_found (h : r.Appends r' found) (hsound : r.Sound) {own : Option Plan}
    (hmem : (typeName, own) ∈ found) :
    r'.stage? typeName = some (if own.isSome then .built else .building) := by
  have hnew : typeName ∉ r.typeNames := by
    intro hold
    have hnodup := r'.methods.nodup
    rw [h.entries, List.map_append] at hnodup
    exact List.disjoint_of_nodup_append hnodup hold (List.mem_map_of_mem hmem)
  rw [Registry.stage?, h.get?_of_found hmem, h.verdicts, hsound.verdict?_of_not_mem hnew]
  cases own <;> rfl

/-- The types among those found that are building are those without a plan. -/
theorem Appends.filter_building (h : r.Appends r' found) (hsound : r.Sound) :
    ((found.map Prod.fst).filter fun typeName => r'.stage? typeName = some .building) =
      unfinished found := by
  unfold unfinished
  rw [List.filter_map]
  refine congrArg _ (List.filter_congr fun entry hmem => ?_)
  have hstage := h.stage?_of_found hsound (show (entry.1, entry.2) ∈ found from hmem)
  cases hown : entry.2 <;> simp [hstage, hown]

end Registry

open Registry

/-! ## What planning appends -/

section Steps

variable {α β : Type} {doc : Document}

/-- How a step ends that has found types. If it succeeds all of them have a plan, and if it fails those
without one are the open ones. -/
structure Generation.Ends (fails : GenerationError → List (String × Schema) → Prop)
    (result : Except GenerationError α) (found : List (String × Option Plan)) : Prop where
  ok : ∀ a, result = .ok a → ∀ entry ∈ found, entry.2.isSome
  error : ∀ e, result = .error e →
    ∃ opened, fails e opened ∧ unfinished found = opened.map Prod.fst

/-- A step appends what it finds. How it fails depends on the names that were known before. -/
def Generation.Appending (x : Generation α)
    (fails : List String → GenerationError → List (String × Schema) → Prop) : Prop :=
  ∀ r, ∃ found, r.Appends (x.run r).2 found ∧ Ends (fails r.typeNames) (x.run r).1 found

theorem Generation.Ends.ok_nil {fails : GenerationError → List (String × Schema) → Prop} (a : α) :
    Ends fails (.ok a) [] := by
  constructor
  · intro _ _ entry hmem
    cases hmem
  · intro e he
    cases he

theorem Generation.Ends.failed {fails : GenerationError → List (String × Schema) → Prop}
    {found : List (String × Option Plan)} {e : GenerationError} {opened : List (String × Schema)}
    (h : fails e opened) (hunfinished : unfinished found = opened.map Prod.fst) :
    Ends fails (.error e : Except GenerationError α) found := by
  constructor
  · intro a ha
    cases ha
  · intro e' he
    cases he
    exact ⟨opened, h, hunfinished⟩

variable {fails first : List String → GenerationError → List (String × Schema) → Prop}
  {x : Generation α}

theorem Generation.Appending.mono (h : x.Appending first)
    (himp : ∀ known e opened, first known e opened → fails known e opened) :
    x.Appending fails := by
  intro r
  obtain ⟨found, happends, hends⟩ := h r
  refine ⟨found, happends, hends.ok, fun e he => ?_⟩
  obtain ⟨opened, hopened, hunfinished⟩ := hends.error e he
  exact ⟨opened, himp _ _ _ hopened, hunfinished⟩

theorem Generation.Appending.pure (a : α) : (pure a : Generation α).Appending fails :=
  fun r => ⟨[], .refl r, .ok_nil a⟩

theorem Generation.Appending.throw_bind {e : GenerationError} {f : α → Generation β}
    (h : ∀ known, fails known e []) : ((throw e : Generation α) >>= f).Appending fails := by
  intro r
  rw [run_bind, run_throw]
  exact ⟨[], .refl r, .failed (h _) rfl⟩

/-- A second step starts from what the first has left. -/
theorem Generation.Appending.bind {f : α → Generation β}
    {second : α → List String → GenerationError → List (String × Schema) → Prop}
    (hx : x.Appending first) (hf : ∀ a, (f a).Appending (second a))
    (hfirst : ∀ known e opened, first known e opened → fails known e opened)
    (hsecond : ∀ r a e opened, (x.run r).1 = .ok a → second a (x.run r).2.typeNames e opened →
      fails r.typeNames e opened) : (x >>= f).Appending fails := by
  intro r
  obtain ⟨found, happends, hends⟩ := hx r
  rw [run_bind]
  rcases hrun : x.run r with ⟨e | a, middle⟩
  · rw [hrun] at happends hends
    obtain ⟨opened, hopened, hunfinished⟩ := hends.error e rfl
    exact ⟨found, happends, .failed (hfirst _ _ _ hopened) hunfinished⟩
  · rw [hrun] at happends hends
    have hplanned := hends.ok a rfl
    obtain ⟨more, happendsMore, hendsMore⟩ := hf a middle
    refine ⟨found ++ more, happends.trans happendsMore, fun b hb entry hmem => ?_, fun e he => ?_⟩
    · rcases List.mem_append.1 hmem with hmem | hmem
      · exact hplanned entry hmem
      · exact hendsMore.ok b hb entry hmem
    · obtain ⟨opened, hopened, hunfinished⟩ := hendsMore.error e he
      refine ⟨opened, hsecond r a e opened (by rw [hrun]) (by rwa [hrun]), ?_⟩
      rw [unfinished_append, unfinished_eq_nil hplanned, hunfinished]
      rfl

theorem Generation.Appending.bind_pure {f : α → β} (hx : x.Appending fails) :
    (x >>= fun a => Pure.pure (f a)).Appending fails := by
  have hnever : ∀ a, (Pure.pure (f a) : Generation β).Appending fun _ _ _ => False :=
    fun a => .pure (f a)
  exact hx.bind hnever (fun _ _ _ h => h) fun _ _ _ _ _ h => h.elim

theorem Generation.Appending.note_bind {n : Note} {f : Unit → Generation β}
    (hf : (f ()).Appending fails) : (note n >>= f).Appending fails := by
  intro r
  obtain ⟨found, happends, hends⟩ := hf (r.record n)
  exact ⟨found, ⟨happends.entries, happends.verdicts⟩, hends⟩

theorem Generation.Appending.ofExcept_bind {a : α} {f : α → Generation β}
    (hf : (f a).Appending fails) :
    ((MonadExcept.ofExcept (.ok a : Except GenerationError α)) >>= f).Appending fails := by
  intro r
  rw [run_bind, run_ofExcept]
  exact hf r

theorem plan_appending (doc : Document) (schema : Schema) :
    (plan doc schema).Appending fun known e opened => Fails doc known schema e opened := by
  intro r
  have hmeets := planSchema_meets doc r.typeNames schema
  unfold plan
  rw [run_absorb]
  refine ⟨_, appends_register hmeets.discovers, fun a ha => (hmeets.result a ha).2, fun e he => ?_⟩
  obtain ⟨opened, hopened⟩ := planSchema_eq_error_iff.1 he
  exact ⟨opened, hopened, hopened.unfinished⟩

theorem register_appending (doc : Document) (typeName : String) (schema : Schema) :
    (Generation.register doc typeName schema).Appending fun known e opened =>
      (Call.register typeName schema).Fails doc known e opened := by
  intro r
  obtain ⟨origin, hdiscovers⟩ := exists_discovers_planType doc r.typeNames typeName schema
  unfold Generation.register
  rw [run_absorb]
  refine ⟨_, appends_register hdiscovers, fun _ hok => isSome_of_planType hok, fun e he => ?_⟩
  unfold planType at he ⊢
  split at he
  · cases he
  · rename_i hnew
    rw [if_neg hnew]
    dsimp only at he ⊢
    have herror := map_eq_error_iff.1 he
    obtain ⟨opened, hopened⟩ := planSchema_eq_error_iff.1 herror
    refine ⟨_, .register (by simpa using hnew) hopened, ?_⟩
    rw [List.map_cons, ← hopened.unfinished, herror]
    rfl

theorem planEndpoints_appending (doc : Document) (taken : List String) (list : List Endpoint) :
    (planEndpoints doc taken list).Appending fun known e opened =>
      FailsAt doc taken known list e opened := by
  induction list generalizing taken with
  | nil => exact .pure []
  | cons endpoint rest ih =>
      have hrest := ih (endpoint.name :: taken)
      obtain ⟨path, method, operation⟩ := endpoint
      rw [planEndpoints, successSchema_eq]
      dsimp only
      split
      · rename_i htaken
        rw [List.contains_iff_mem] at htaken
        exact .throw_bind fun _ => .refused (.duplicateOperation htaken)
      · rename_i hnew
        rw [List.contains_iff_mem] at hnew
        rcases hoffer : operation.offer? with _ | (reference | schema)
        · exact .ofExcept_bind (.note_bind (hrest.mono fun _ _ _ => .noResponse hnew hoffer))
        · exact .throw_bind fun _ => .refused (.sharedResponse hnew hoffer)
        · refine .ofExcept_bind ((plan_appending doc schema).bind
            (fun _ => .note_bind hrest.bind_pure) (fun _ _ _ => .response hnew hoffer) ?_)
          intro r plan e opened hplan hfails
          unfold Generation.plan at hplan hfails
          rw [run_absorb] at hplan hfails
          rw [typeNames_register (planSchema_meets doc r.typeNames schema).discovers] at hfails
          exact .later hnew hoffer (planSchema_plans doc r.typeNames schema) hplan hfails

end Steps

/-! ## Calls -/

/-- What a call that plans does: it appends types, and touches none of those that were there. If it
succeeds all of its types are built, and if it fails those that were open are left building. -/
structure Call.Lengthens (doc : Document) (call : Call) (r r' : Registry)
    (result : Except GenerationError Unit) (appended : List String) : Prop where
  typeNames : r'.typeNames = r.typeNames ++ appended
  keeps : ∀ typeName ∈ r.typeNames, r.Keeps r' typeName
  stage? : ∀ typeName ∈ appended,
    r'.stage? typeName = some .built ∧ (r'.plan? typeName).isSome ∨
      r'.stage? typeName = some .building ∧ r'.plan? typeName = none
  ok : result = .ok () → ∀ typeName ∈ appended, r'.stage? typeName = some .built
  error : ∀ e, result = .error e → ∃ opened, call.Fails doc r.typeNames e opened ∧
    Linked doc opened ∧
      (appended.filter fun typeName => r'.stage? typeName = some .building) =
        opened.map Prod.fst

section Calls

variable {α : Type} {doc : Document} {r r' : Registry} {call : Call}

theorem Generation.Appending.discard {x : Generation α}
    {fails : List String → GenerationError → List (String × Schema) → Prop}
    (h : x.Appending fails) : (discard x).Appending fails := by
  intro r
  obtain ⟨found, happends, hends⟩ := h r
  rw [run_discard]
  refine ⟨found, happends, fun _ hok => ?_, fun e he => hends.error e (map_eq_error_iff.1 he)⟩
  rcases hresult : (x.run r).1 with e | a
  · rw [hresult] at hok
    cases hok
  · exact hends.ok a hresult

theorem Call.step_appending (h : call.IsPlanning) :
    (call.step doc).Appending fun known e opened => call.Fails doc known e opened := by
  cases h with
  | register => exact register_appending doc _ _
  | plan => exact (plan_appending doc _).discard.mono fun _ _ _ => .plan
  | planOperations =>
      exact (planEndpoints_appending doc [] _).discard.mono fun _ _ _ => .planOperations

theorem Call.exists_lengthens (hsound : r.Sound) (h : call.IsPlanning) :
    ∃ appended, call.Lengthens doc r ((call.step doc).run r).2 ((call.step doc).run r).1
      appended := by
  obtain ⟨found, happends, hends⟩ := call.step_appending h r
  refine ⟨found.map Prod.fst, happends.typeNames, fun _ hmem => happends.keeps hmem,
    fun typeName hmem => ?_, fun hok typeName hmem => ?_, fun e he => ?_⟩
  · obtain ⟨⟨name, own⟩, hentry, rfl⟩ := List.mem_map.1 hmem
    rw [happends.stage?_of_found hsound hentry, Registry.plan?, happends.get?_of_found hentry]
    cases own with
    | none => exact .inr ⟨rfl, rfl⟩
    | some plan => exact .inl ⟨rfl, rfl⟩
  · obtain ⟨⟨name, own⟩, hentry, rfl⟩ := List.mem_map.1 hmem
    rw [happends.stage?_of_found hsound hentry, hends.ok () hok _ hentry]
    rfl
  · obtain ⟨opened, hopened, hunfinished⟩ := hends.error e he
    exact ⟨opened, hopened, hopened.linked, (happends.filter_building hsound).trans hunfinished⟩

/-- A type that is building is not planned by any call. -/
theorem Call.step_building {typeName : String} (h : r.methods.get? typeName = some none) :
    ((call.step doc).run r).2.methods.get? typeName = some none := by
  by_cases hplanning : call.IsPlanning
  · obtain ⟨found, happends, _⟩ := call.step_appending hplanning r
    rw [happends.get?_of_mem (OrderedMap.mem_keys_of_get? h)]
    exact h
  · rw [(Call.step_consults hplanning r).methods]
    exact h

theorem Registry.stage?_eq_building_iff {typeName : String} :
    r.stage? typeName = some .building ↔ r.methods.get? typeName = some none := by
  unfold Registry.stage?
  rcases r.methods.get? typeName with _ | _ | plan
  · simp
  · simp
  · cases r.verdicts.get? typeName <;> simp

theorem foldl_building {typeName : String} (calls : List Call)
    (h : r.stage? typeName = some .building) :
    (calls.foldl (fun r call => ((call.step doc).run r).2) r).stage? typeName =
      some .building := by
  induction calls generalizing r with
  | nil => exact h
  | cons call rest ih =>
      rw [stage?_eq_building_iff] at h
      exact ih (stage?_eq_building_iff.2 (call.step_building h))

end Calls

/-- In every state of a session, whatever was called and failed before, the types have distinct names
and stand at their numbers, and all types that plans name have one, in stored plans as in those that are
returned. A call that plans only appends types; if it succeeds it has built them all, and if it fails
it leaves those building that were open then, each of which refers to the next. A type that is building
stays so for the rest of the session. -/
theorem session_lifecycle (doc : Document) (calls : List Call) :
    let r := Registry.session doc calls
    r.Ordered ∧
      (∀ call : Call, call.IsPlanning → ∃ appended,
        call.Lengthens doc r ((call.step doc).run r).2 ((call.step doc).run r).1 appended) ∧
      (∀ schema plan r', (Generation.plan doc schema).run r = (.ok plan, r') → r'.Numbers plan) ∧
      (∀ operations r', (planOperations doc).run r = (.ok operations, r') →
        ∀ operation ∈ operations, r'.Numbers operation.plan) ∧
      ∀ more typeName, r.stage? typeName = some .building →
        (Registry.session doc (calls ++ more)).stage? typeName = some .building := by
  intro r
  have hsound : r.Sound := session_sound doc calls
  refine ⟨hsound.ordered, fun call => call.exists_lengthens hsound, fun schema plan r' hrun => ?_,
    fun operations r' hrun operation hmem => ?_, fun more typeName hbuilding => ?_⟩
  · exact .of_knows (plan_grows hrun).2.2
  · obtain ⟨_, _, hall⟩ := planEndpoints_answers (fun _ h => h) hrun
    obtain ⟨response, _, hanswers⟩ := exists_of_mem_right hall hmem
    exact .of_knows hanswers.1.knows
  · unfold Registry.session
    rw [List.foldl_append]
    exact foldl_building more hbuilding

end DateReviver
