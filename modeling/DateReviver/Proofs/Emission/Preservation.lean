import DateReviver.Proofs.Emission.Functions
import DateReviver.Proofs.Emission.Iteration

/-!
# Statements carry out their plan

Run on a value that fits a plan, the statements for the plan leave the value with dates at the ends
of the paths to dates, or stop where the run stumbles. The induction is on how the value fits the
plan: every call of a function goes on in a type's plan that the value fits, so that circles of
types are walked only as far as the value goes.
-/

namespace DateReviver

open DateReviver.TypeScript

/-- The statements for a plan replace the value itself: it is a date, or another name of one. -/
def Plan.ReplacesValue (r : Registry) : Plan → Prop
  | .date _ => True
  | .delegate typeName _ => ∃ inner, r.dateAlias? typeName = some inner
  | _ => False

/-- What makes the statements for a plan replace a value: there is one test and one assignment, as
for a date. -/
structure Plan.Replaces (r : Registry) (policy : GuardPolicy) (plan : Plan) (value : Value)
    (nullable : Bool) : Prop where
  statements : ∀ scope e, r.statements policy scope plan e = dateStatements policy nullable e
  dates : ∀ path, r.Dates plan path ↔ path = []
  fits : (∃ source, value = .text source) ∨ (value = .null ∧ nullable = true)
  safe : ∀ nested, ¬ Stumbles r nested plan value

/-- A module has the functions for the types of a registry. -/
structure Compiled (m : Module) (r : Registry) (policy : GuardPolicy) : Prop where
  named : FunctionsNamed m
  tidy : ∀ typeName plan, r.plan? typeName = some plan → plan.Tidy
  functions : ∀ typeName plan, r.NeedsFunction typeName plan →
    (m.find? fun f => f.name == functionName typeName)
      = some (r.functionOfType policy typeName plan)
  params : ∀ typeName plan, r.NeedsFunction typeName plan → ParamApart m (parameterName typeName)

section Plans

variable {m : Module} {r : Registry} {policy : GuardPolicy} {missing : String × Plan → Prop}

/-- A type that needs a function has no plan that replaces its values. -/
theorem Registry.NeedsFunction.not_replacesValue {typeName : String} {plan : Plan}
    (h : r.NeedsFunction typeName plan) : ¬ plan.ReplacesValue r := by
  intro hreplaces
  cases plan with
  | date nullable =>
      obtain ⟨inner, hinner⟩ := Registry.dateAlias?_of_date h.plan?
      rw [h.notAlias] at hinner
      cases hinner
  | delegate target nullable =>
      obtain ⟨inner, htarget⟩ := hreplaces
      obtain ⟨outer, houter⟩ := Registry.dateAlias?_of_delegate h.plan? htarget
      rw [h.notAlias] at houter
      cases houter
  | primitive | array | map | object => exact hreplaces

theorem Plan.ReplacesValue.replaces {plan : Plan} {value : Value} (h : plan.ReplacesValue r)
    (hfits : Fits r missing plan value) :
    ∃ nullable, plan.Replaces r policy value nullable := by
  cases plan with
  | date nullable =>
      refine ⟨nullable, fun _ _ => Registry.statements_date, fun _ => Registry.dates_date, ?_,
        fun _ => not_stumbles_date⟩
      cases hfits with
      | null hnull => exact .inr ⟨rfl, hnull⟩
      | date => exact .inl ⟨_, rfl⟩
  | delegate typeName nullable =>
      obtain ⟨inner, halias⟩ := h
      obtain ⟨chain, hchain⟩ := Registry.aliasChain_of_aliasWithin halias
      refine ⟨nullable || inner, fun scope e => by rw [Registry.statements_delegate, halias],
        fun _ => hchain.dates, ?_, fun _ => hchain.not_stumbles⟩
      cases hfits with
      | null hnull => exact .inr ⟨rfl, by rw [show nullable = true from hnull, Bool.true_or]⟩
      | delegate hplan hfits =>
          rcases Registry.aliasWithin_fits halias hplan hfits with htext | ⟨rfl, rfl⟩
          · exact .inl htext
          · exact .inr ⟨rfl, Bool.or_true _⟩
  | primitive | array | map | object => exact absurd h id

/-- What the statements for a plan do to a value that fits it, at any place they may stand for. -/
def CarriesOut (m : Module) (r : Registry) (policy : GuardPolicy) (plan : Plan)
    (value : Value) : Prop :=
  ∀ (scope : Scope) (env : Env) (e : Expr) (context : Value → Value), plan.Tidy →
    Sees m scope.loops env → Denotes env scope.loops e context →
    (plan.ReplacesValue r → ∀ name, e ≠ .ident name) →
    Carries m env (context value) (context (value.revive (r.Dates plan)))
      (Stumbles r scope.nested plan value) (r.statements policy scope plan e)

/-- Where no date is reached, nothing is done. -/
theorem carriesOut_dateless {plan : Plan} {value : Value} (h : ¬ r.HoldsDate plan) :
    CarriesOut m r policy plan value := by
  intro scope env e context _ _ _ _
  rw [Registry.statements_eq_nil_iff.2 h,
    Value.revive_of_dateless fun path hdates => h hdates.holdsDate]
  exact .nil fun hstumbles => h hstumbles.holdsDate

/-- A value that is replaced inside of the value of the parameter. -/
theorem carriesOut_replaced {plan : Plan} {value : Value} (h : plan.ReplacesValue r)
    (hfits : Fits r missing plan value) : CarriesOut m r policy plan value := by
  obtain ⟨nullable, hreplaces⟩ := h.replaces hfits
  intro scope env e context _ hsees hplace hinside
  rw [hreplaces.statements]
  refine .of_not (hreplaces.safe _) ?_
  exact ends_dateStatements hsees hplace (hinside h) hreplaces.dates hreplaces.fits

/-- Null is passed over, unless a function is given it in place of an object. -/
theorem carriesOut_null {plan : Plan} (hnull : plan.admitsNull = true)
    (hreplaces : ¬ plan.ReplacesValue r) : CarriesOut m r policy plan .null := by
  by_cases hdate : r.HoldsDate plan
  · intro ⟨loops, nested⟩ env e context _ hsees hplace _
    have hread := hplace.read .null
    rw [Value.revive_null]
    cases plan with
    | primitive => cases hnull
    | date => exact absurd trivial hreplaces
    | delegate typeName nullable =>
        cases hnull
        refine .of_not ?_ ?_
        · intro hstumbles
          cases hstumbles with
          | delegate _ hcalled => simp at hcalled
        · rw [Registry.statements_delegate]
          split
          · rename_i inner halias
            exact absurd ⟨inner, halias⟩ hreplaces
          · rw [if_pos hdate]
            exact ends_call_null hsees hread
    | array item nullable =>
        cases hnull
        refine .of_not (fun h => by cases h) ?_
        rw [Registry.statements_array]
        split
        · exact .nil
        · exact ends_guarded_null hsees hread
    | map values nullable =>
        cases hnull
        refine .of_not (fun h => by cases h) ?_
        rw [Registry.statements_map]
        split
        · exact .nil
        · exact ends_guarded_null hsees hread
    | object properties nullable =>
        cases hnull
        have hne : r.propertyStatements policy (Scope.enterProperty ⟨loops, nested⟩) properties e
            ≠ [] := by
          rw [Ne, Registry.propertyStatements_eq_nil_iff, not_not]
          exact Registry.holdsDate_object_iff.1 hdate
        cases nested with
        | false =>
            -- The function reads a property of the null that it was given.
            have hstumbles : Stumbles r false (.object properties true) .null := .object hdate
            have hnothing (name : String) : ReadsNothing env loops
                (Frame.current ⟨context .null, none⟩) (e.property name) :=
              hplace.readsNothing (.inr rfl) name
            refine ⟨fun hnot => absurd hstumbles hnot, fun _ => ?_⟩
            rw [Registry.statements_object, if_pos (by simp)]
            exact ends_propertyStatements_error hsees rfl hnothing hne
        | true =>
            refine .of_not (fun h => by cases h) ?_
            rw [Registry.statements_object, if_neg (by simpa using hne)]
            exact ends_guarded_null hsees hread
  · exact carriesOut_dateless hdate

/-- A call does to a value what the function does to its parameter. -/
theorem carries_call (hm : Compiled m r policy) {typeName : String} {nullable : Bool} {plan : Plan}
    {value : Value} {level : Nat} {env : Env} {e : Expr} {context : Value → Value}
    (hneeds : r.NeedsFunction typeName plan) (hfits : Fits r missing plan value)
    (hown : CarriesOut m r policy plan value) (hnull : nullable = true → value ≠ .null)
    (hsees : Sees m level env) (hplace : Denotes env level e context) :
    Carries m env (context value) (context (value.revive (r.Dates plan)))
      (Stumbles r false plan value) [callStatement typeName nullable e] := by
  have hread := hplace.read value
  have hundefined := hfits.ne_undefined hneeds.holdsDate
  have hfunction := hm.functions _ _ hneeds
  have hparam := hm.params _ _ hneeds
  have hcallable := hsees.callable (List.mem_of_find?_eq_some hfunction)
  have hbody := hown .root _ _ id (hm.tidy _ _ hneeds.plan?) (Sees.function hm.named hparam)
    (denotes_param hparam) fun hreplaces => absurd hreplaces hneeds.not_replacesValue
  constructor
  · intro hnot
    have hcall := settles_call hfunction (hbody.1 hnot).settles
    refine ends_call hsees hread hundefined hnull ?_
    exact settles_callExpr hcallable hread hcall (hplace.write _ _)
  · intro hstumbles
    have hcall := settles_call hfunction (hbody.2 hstumbles).settles
    refine ends_call hsees hread hundefined hnull ?_
    exact settles_callExpr_error hcallable hread hcall

/-- A value of a named type is converted in place if the type is another name of date-time strings,
and by the function of the type otherwise. -/
theorem carriesOut_delegate (hm : Compiled m r policy) {typeName : String} {nullable : Bool}
    {plan : Plan} {value : Value} (hplan : r.plan? typeName = some plan)
    (hfits : Fits r missing plan value) (hown : CarriesOut m r policy plan value) :
    CarriesOut m r policy (.delegate typeName nullable) value := by
  by_cases hreplaces : (Plan.delegate typeName nullable).ReplacesValue r
  · exact carriesOut_replaced hreplaces (.delegate hplan hfits)
  · by_cases hskip : nullable = true ∧ value = .null
    · obtain ⟨rfl, rfl⟩ := hskip
      exact carriesOut_null rfl hreplaces
    · have hnull : nullable = true → value ≠ .null := fun htrue heq => hskip ⟨htrue, heq⟩
      by_cases hdate : r.HoldsDate (.delegate typeName nullable)
      -- Only here a function is called. It changes its own parameter, and the change is written
      -- back to the place of the argument.
      · intro scope env e context _ hsees hplace _
        have hneeds : r.NeedsFunction typeName plan :=
          ⟨hplan, (Registry.holdsDate_delegate_iff hplan).1 hdate,
            Option.eq_none_iff_forall_ne_some.2 fun inner halias => hreplaces ⟨inner, halias⟩⟩
        have hcalled : nullable = false ∨ value ≠ .null := by
          cases nullable with
          | false => exact .inl rfl
          | true => exact .inr (hnull rfl)
        rw [Registry.statements_delegate, hneeds.notAlias]
        dsimp only
        rw [if_pos hdate, Registry.dates_delegate hplan]
        refine (carries_call hm hneeds hfits hown hnull hsees hplace).congr ?_
        rw [stumbles_delegate_iff hplan]
        exact ⟨fun hstumbles => ⟨hcalled, hstumbles⟩, fun h => h.2⟩
      · exact carriesOut_dateless hdate

theorem carriesOut_array {item : Plan} {nullable : Bool} {items : List Value}
    (htidy : item.Tidy) (h : ∀ value ∈ items, CarriesOut m r policy item value) :
    CarriesOut m r policy (.array item nullable) (.array items) := by
  by_cases hdate : r.HoldsDate (.array item nullable)
  · intro scope env e context _ hsees hplace _
    have hne : r.statements policy scope.enterLoop item
        (.index e (.ident (loopVariable "i" scope.loops))) ≠ [] := by
      rw [Ne, Registry.statements_eq_nil_iff, not_not]
      exact Registry.holdsDate_array_iff.1 hdate
    rw [Registry.statements_array, Value.revive_array, if_neg (by simpa using hne)]
    refine Carries.guarded hsees (hplace.read _) (by simp) (by simp) ?_
    rw [stumbles_array_iff]
    refine carries_forIndex (hplace.length (.inl rfl)) fun before value after hmem => ?_
    exact h value hmem scope.enterLoop _ _ _ htidy (hsees.enter (.inl rfl) _)
      (hplace.item before after) fun _ name heq => by cases heq
  · exact carriesOut_dateless hdate

theorem carriesOut_map {values : Plan} {nullable : Bool} {fields : List (String × Value)}
    (htidy : values.Tidy) (hnodup : (fields.map Prod.fst).Nodup)
    (h : ∀ field ∈ fields, CarriesOut m r policy values field.2) :
    CarriesOut m r policy (.map values nullable) (.object fields) := by
  by_cases hdate : r.HoldsDate (.map values nullable)
  · intro scope env e context _ hsees hplace _
    have hne : r.statements policy scope.enterLoop values
        (.index e (.ident (loopVariable "key" scope.loops))) ≠ [] := by
      rw [Ne, Registry.statements_eq_nil_iff, not_not]
      exact Registry.holdsDate_map_iff.1 hdate
    rw [Registry.statements_map, Value.revive_map, if_neg (by simpa using hne)]
    refine Carries.guarded hsees (hplace.read _) (by simp) (by simp) ?_
    rw [stumbles_map_iff]
    refine carries_forOf hnodup ?_ fun before field after hmem hfresh => ?_
    · have hinside := hsees.enter (.inr rfl : LoopName scope.loops _) none
      have hread := (hplace _ (Deeper.nil.enter (.inr rfl) none) (.object fields)).1
      rw [Expr.keys, if_pos hinside.global_object]
      exact congrArg (· >>= Value.keys) hread
    · have hown := h field hmem scope.enterLoop _ _ _ htidy (hsees.enter (.inr rfl) _)
        (hplace.entry (before ++ field :: after) field.1) fun _ name heq => by cases heq
      simp only [OrderedMap.put_middle hfresh] at hown
      exact hown
  · exact carriesOut_dateless hdate

theorem carriesOut_object {properties : List (String × Plan)} {nullable : Bool}
    {fields : List (String × Value)} (hnodup : (fields.map Prod.fst).Nodup)
    (hmissing : ∀ property ∈ properties, fields.lookup property.1 = none →
      r.MayLack policy.allPresent property)
    (h : ∀ property ∈ properties, ∀ value, fields.lookup property.1 = some value →
      CarriesOut m r policy property.2 value) :
    CarriesOut m r policy (.object properties nullable) (.object fields) := by
  intro scope env e context htidy hsees hplace _
  cases htidy with
  | object hproperties htidy =>
      have hinner : Carries m env (context (.object fields))
          (context (.object (reviveUnder r properties fields)))
          (Stumbles r scope.nested (.object properties nullable) (.object fields))
          (r.propertyStatements policy scope.enterProperty properties e) := by
        rw [stumbles_object_iff]
        refine carries_properties hproperties hnodup (fun _ _ => rfl) ?_ ?_
        · intro property hmem value hvalue now hnow
          have hown := h property hmem value hvalue scope.enterProperty env _ _
            (htidy property hmem) hsees (hplace.property now property.1)
            fun _ name => property_ne_ident e property.1 name
          rwa [OrderedMap.put_of_lookup hnow] at hown
        · intro property hmem hnone now hnow
          exact ends_statements_missing hsees hplace (hmissing property hmem hnone) hnow
      rw [Registry.statements_object, Value.revive_object]
      split
      · exact hinner
      · exact hinner.guarded hsees (hplace.read _) (by simp) (by simp)

/-- The statements for a plan carry it out on every value that fits it. -/
theorem Fits.carriesOut (hm : Compiled m r policy) {plan : Plan} {value : Value}
    (h : Fits r (r.MayLack policy.allPresent) plan value) : CarriesOut m r policy plan value := by
  induction h with
  | primitive => exact carriesOut_dateless Registry.not_holdsDate_primitive
  | @null plan hnull =>
      have hfits : Fits r (r.MayLack policy.allPresent) plan .null := .null hnull
      by_cases hreplaces : plan.ReplacesValue r
      · exact carriesOut_replaced hreplaces hfits
      · exact carriesOut_null hnull hreplaces
  | @date nullable source =>
      have hfits : Fits r (r.MayLack policy.allPresent) (.date nullable) (.text source) := .date
      exact carriesOut_replaced trivial hfits
  | delegate hplan hfits ih => exact carriesOut_delegate hm hplan hfits ih
  | array _ ih =>
      intro scope env e context htidy
      cases htidy with
      | array hitem => exact carriesOut_array hitem ih scope env e context (.array hitem)
  | map hnodup _ ih =>
      intro scope env e context htidy
      cases htidy with
      | map hvalues => exact carriesOut_map hvalues hnodup ih scope env e context (.map hvalues)
  | object hnodup hmissing _ ih => exact carriesOut_object hnodup hmissing ih

/-- The function for an operation returns what its statements leave of the parameter. -/
theorem settles_functionOfOperation {operation : OperationPlan} {value : Value} {after : Frame}
    (hfunction : (m.find? fun g => g.name == (r.functionOfOperation policy operation).name)
      = some (r.functionOfOperation policy operation)) (hsees : Sees m 0 ⟨"response", []⟩)
    (hbody : Ends m ⟨"response", []⟩ ⟨value, none⟩
      (r.statements policy .root operation.plan (.ident "response")) (.ok after)) :
    Settles (call m · (r.functionOfOperation policy operation).name value)
      (.ok (after.value, some after.current)) := by
  have hreturn := hbody [.ret (.ident "response")] _ (settles_ret (if_pos hsees.isParam))
  exact settles_call hfunction hreturn

/-- The function for an operation returns its value with dates at the ends of the paths to dates, or
stops where the run stumbles. -/
theorem Fits.call_operation (hm : Compiled m r policy) {operation : OperationPlan} {value : Value}
    {f : Function} (hf : f = r.functionOfOperation policy operation)
    (hfunction : (m.find? fun g => g.name == f.name) = some f) (hparam : ParamApart m "response")
    (htidy : operation.plan.Tidy)
    (h : Fits r (r.MayLack policy.allPresent) operation.plan value) :
    (¬ Stumbles r false operation.plan value → ∃ after, Settles (call m · f.name value)
      (.ok (after, some (value.revive (r.Dates operation.plan))))) ∧
    (Stumbles r false operation.plan value →
      Settles (call m · f.name value) (.error .nothingRead)) := by
  subst hf
  have hsees : Sees m 0 ⟨"response", []⟩ := Sees.function hm.named hparam
  by_cases hreplaces : operation.plan.ReplacesValue r
  · obtain ⟨nullable, hreplaced⟩ : ∃ nullable, operation.plan.Replaces r policy value nullable :=
      hreplaces.replaces h
    refine ⟨fun _ => ?_, fun hstumbles => absurd hstumbles (hreplaced.safe _)⟩
    obtain ⟨after, hbody, hafter⟩ : ∃ after, Ends m ⟨"response", []⟩ ⟨value, none⟩
        (dateStatements policy nullable (.ident "response")) (.ok after) ∧
          after.current = value.revive (r.Dates operation.plan) :=
      ends_dateStatements_param hsees hsees.isParam hreplaced.dates hreplaced.fits
    rw [← hreplaced.statements .root] at hbody
    rw [← hafter]
    exact ⟨after.value, settles_functionOfOperation hfunction hsees hbody⟩
  · have hbody := h.carriesOut hm .root _ _ id htidy hsees (denotes_param hparam)
      fun habsurd => absurd habsurd hreplaces
    constructor
    · intro hnot
      exact ⟨_, settles_functionOfOperation hfunction hsees (hbody.1 hnot)⟩
    · intro hstumbles
      exact settles_call hfunction (hbody.2 hstumbles [.ret (.ident "response")])

end Plans

end DateReviver
