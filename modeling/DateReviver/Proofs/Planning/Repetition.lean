import DateReviver.Proofs.Generate

/-!
# Planning what can be planned

Whether a schema can be planned does not depend on the types that happen to be known. Where some
registry knows a translation of it, planning it comes to no error, in whatever order and from whatever
registry it is done, and its result is that translation.
-/

namespace DateReviver

open DateReviver.OpenApi Generation

section Schemas

variable {doc : Document} {r : Registry}

theorem exists_map_ok {α β : Type} {result : Except GenerationError α} (f : α → β)
    (h : ∃ a, result = .ok a) : ∃ b, result.map f = .ok b := by
  obtain ⟨a, rfl⟩ := h
  exact ⟨f a, rfl⟩

mutual

/-- A schema with a translation whose types are registered is planned without an error. The induction
is on the course of planning: what it goes through are the parts that are translated, and the
components of types that are registered. -/
theorem Plans.exists_ok (hfaithful : r.Faithful doc) : {known : List String} → {schema : Schema} →
    {planned : Planned Plan} → Plans doc known schema planned → {plan : Plan} →
      Translates doc schema plan → r.Knows plan → ∃ own, planned.result = .ok own
  | _, _, _, .boolean, _, _, _ => ⟨_, rfl⟩
  | _, _, _, .unresolved hreference hresolve, _, htranslates, _ => by
      obtain ⟨name, target, hok, _⟩ := htranslates.of_reference hreference
      simp [hresolve] at hok
  | _, _, _, .known _ _ _, _, _, _ => ⟨_, rfl⟩
  | _, _, _, .new hreference hresolve _ h, _, htranslates, hknows => by
      obtain ⟨name, target, hok, rfl⟩ := htranslates.of_reference hreference
      rw [hresolve] at hok
      cases hok
      cases hknows with
      | delegate hmem =>
          obtain ⟨own, hplan, hown⟩ := hfaithful.mirrors.plan?_of_resolve hresolve hmem
          exact exists_map_ok _ (h.exists_ok hfaithful hown (hfaithful.sound.knows _ _ hplan))
  | _, _, _, .union hreference hother h, _, htranslates, hknows => by
      obtain ⟨bare, hbare, rfl⟩ := htranslates.of_unwrapNullable hreference hother
      exact exists_map_ok _ (h.exists_ok hfaithful hbare hknows.of_orNull)
  | _, _, _, .anyUnion _ _ _, _, _, _ => ⟨_, rfl⟩
  | _, _, _, .array hplain htype hitems h, _, htranslates, hknows => by
      obtain ⟨item, hitem, rfl⟩ := htranslates.of_array hplain htype hitems
      cases hknows with
      | array hknown => exact exists_map_ok _ (h.exists_ok hfaithful hitem hknown)
  | _, _, _, .bareArray _ _ _, _, _, _ => ⟨_, rfl⟩
  | _, _, _, .scalar _ _, _, _, _ => ⟨_, rfl⟩
  | _, _, _, .conflict hopen hobject hproperties hvalues, _, htranslates, _ => by
      obtain ⟨_, hproperties⟩ := Option.isSome_iff_exists.1 hproperties
      obtain ⟨_, hvalues⟩ := Option.isSome_iff_exists.1 hvalues
      obtain ⟨_, _, hmap⟩ := htranslates.of_map hopen hobject hvalues
      obtain ⟨_, _, hobject⟩ := htranslates.of_object hopen hobject hproperties
      rw [hmap] at hobject
      cases hobject
  | _, _, _, .map hopen hobject _ hvalues h, _, htranslates, hknows => by
      obtain ⟨values, hplan, rfl⟩ := htranslates.of_map hopen hobject hvalues
      cases hknows with
      | map hknown => exact exists_map_ok _ (h.exists_ok hfaithful hplan hknown)
  | _, _, _, .object hopen hobject hproperties _ h, _, htranslates, hknows => by
      obtain ⟨plans, hplans, rfl⟩ := htranslates.of_object hopen hobject hproperties
      cases hknows with
      | object hknown => exact exists_map_ok _ (h.exists_ok hfaithful hplans hknown)
  | _, _, _, .empty hopen hobject hproperties hvalues, _, htranslates, _ =>
      absurd htranslates (Translates.not_empty hopen hobject hproperties hvalues)
  | _, _, _, .date _ _ _, _, _, _ => ⟨_, rfl⟩
  | _, _, _, .text _ _ _, _, _, _ => ⟨_, rfl⟩

theorem PlansAll.exists_ok (hfaithful : r.Faithful doc) : {known : List String} →
    {properties : List (String × Schema)} → {planned : Planned (List (String × Plan))} →
      PlansAll doc known properties planned → {plans : List (String × Plan)} →
        TranslatesAll doc properties plans → (∀ property ∈ plans, r.Knows property.2) →
          ∃ own, planned.result = .ok own
  | _, _, _, .nil, _, _, _ => ⟨_, rfl⟩
  | _, _, _, .failed h hresult, _, .cons hplan _, hknows => by
      obtain ⟨own, hown⟩ := h.exists_ok hfaithful hplan (hknows _ List.mem_cons_self)
      rw [hresult] at hown
      cases hown
  | _, _, _, .cons _ _ hrest, _, .cons _ hplans, hknows =>
      exists_map_ok _ (hrest.exists_ok hfaithful hplans fun property hmem =>
        hknows property (List.mem_cons_of_mem _ hmem))

end

/-- The result of planning is the only translation of the schema. -/
theorem planSchema_eq_ok (hfaithful : r.Faithful doc) {schema : Schema} {plan : Plan}
    (htranslates : Translates doc schema plan) (hknows : r.Knows plan) (known : List String) :
    (planSchema doc known schema).result = .ok plan := by
  obtain ⟨own, hown⟩ :=
    (planSchema_plans doc known schema).exists_ok hfaithful htranslates hknows
  have htranslated := ((planSchema_meets doc known schema).result own hown).1.1
  rw [hown, htranslates.unique htranslated]

end Schemas

/-! ## Steps of a generation -/

namespace Generation

variable {α β : Type} {doc : Document} {r : Registry}

/-- A step that has one result, from whatever registry it starts. -/
def Returns (x : Generation α) (a : α) : Prop :=
  ∀ now, (x.run now).1 = .ok a

theorem Returns.pure (a : α) : Returns (pure a : Generation α) a :=
  fun _ => rfl

theorem Returns.note (n : Note) : Returns (note n) () :=
  fun _ => rfl

theorem Returns.bind {x : Generation α} {f : α → Generation β} {a : α} {b : β} (hx : Returns x a)
    (hf : Returns (f a) b) : Returns (x >>= f) b := by
  intro now
  have hfirst := hx now
  rw [run_bind]
  rcases hrun : x.run now with ⟨result, middle⟩
  rw [hrun] at hfirst
  cases hfirst
  exact hf middle

theorem Returns.ofExcept_bind {a : α} {f : α → Generation β} {b : β} (h : Returns (f a) b) :
    Returns ((MonadExcept.ofExcept (.ok a : Except GenerationError α)) >>= f) b := by
  intro now
  rw [run_bind, run_ofExcept]
  exact h now

theorem plan_returns (hfaithful : r.Faithful doc) {schema : Schema} {plan : Plan}
    (htranslates : Translates doc schema plan) (hknows : r.Knows plan) :
    Returns (Generation.plan doc schema) plan := by
  intro now
  unfold Generation.plan
  rw [run_absorb]
  exact planSchema_eq_ok hfaithful htranslates hknows now.typeNames

theorem register_returns (hfaithful : r.Faithful doc) {typeName : String} {schema : Schema}
    {plan : Plan} (htranslates : Translates doc schema plan) (hknows : r.Knows plan) :
    Returns (Generation.register doc typeName schema) () := by
  intro now
  unfold Generation.register planType
  rw [run_absorb]
  dsimp only
  split
  · rfl
  · dsimp only
    rw [planSchema_eq_ok hfaithful htranslates hknows]
    rfl

/-- Types that some registry has are registered without an error. -/
theorem registerTypes_returns (hfaithful : r.Faithful doc) {typeNames : List String}
    (hnames : ∀ typeName ∈ typeNames, typeName ∈ r.typeNames) :
    Returns (registerTypes doc typeNames) () := by
  induction typeNames with
  | nil => exact .pure ()
  | cons typeName rest ih =>
      obtain ⟨schema, plan, hschema, hplan, htranslates⟩ :=
        hfaithful.mirrors typeName (hnames typeName List.mem_cons_self)
      have hknows := hfaithful.sound.knows typeName plan hplan
      rw [registerTypes, hschema]
      exact (register_returns hfaithful htranslates hknows).bind
        (ih fun other hmem => hnames other (List.mem_cons_of_mem _ hmem))

/-- Operations that were planned once are planned the same again. -/
theorem planEndpoints_returns {taken : List String} {list : List Endpoint}
    {operations : List OperationPlan} {r' : Registry} (hfaithful : r.Faithful doc)
    (hrun : (planEndpoints doc taken list).run r = (.ok operations, r')) :
    Returns (planEndpoints doc taken list) operations := by
  induction list generalizing taken r operations with
  | nil =>
      cases hrun
      exact .pure []
  | cons endpoint rest ih =>
      obtain ⟨path, method, operation⟩ := endpoint
      rw [planEndpoints] at hrun ⊢
      dsimp only at hrun ⊢
      split at hrun
      · cases hrun
      · rename_i hnew
        rw [if_neg hnew]
        obtain ⟨chosen, middle, hchosen, hlast⟩ := run_bind_ok hrun
        rw [run_ofExcept] at hchosen
        injection hchosen with hresponse hmiddle
        subst hmiddle
        rw [hresponse]
        refine .ofExcept_bind ?_
        cases chosen with
        | none =>
            obtain ⟨_, noted, hnote, hlast⟩ := run_bind_ok hlast
            cases hnote
            exact (Returns.note _).bind (ih (hfaithful.note _) hlast)
        | some schema =>
            obtain ⟨plan, planned, hplan, hlast⟩ := run_bind_ok hlast
            obtain ⟨_, noted, hnote, hlast⟩ := run_bind_ok hlast
            cases hnote
            obtain ⟨others, last, hothers, hpure⟩ := run_bind_ok hlast
            cases hpure
            have hplanned := plan_faithful hfaithful hplan
            obtain ⟨_, htranslates, hknows⟩ := plan_grows hplan
            refine (plan_returns hplanned htranslates hknows).bind ((Returns.note _).bind ?_)
            exact (ih (hplanned.note _) hothers).bind (.pure _)

end Generation

end DateReviver
