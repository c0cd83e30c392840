import DateReviver.Proofs.Output

/-!
# Emission and the decision about emptiness agree

Statements are written for a plan bottom up, and whatever would do nothing is left out; whether a plan
is empty is found out by a search that follows delegations, stops at the first date and keeps its
verdicts. Where no type without a plan is in the way, both succeed, and nothing is written exactly where
the search finds nothing. Therefore no call leads to a function that is missing, and no function is
written without a body.
-/

namespace DateReviver

open DateReviver.OpenApi DateReviver.TypeScript Generation Registry

/-! ## Delegations -/

section Delegations

variable {r : Registry} {policy : GuardPolicy} {typeName : String} {nullable inner : Bool}
  {value : Expr}

theorem dateStatements_singleton :
    ∃ statement, dateStatements policy nullable value = [statement] := by
  unfold dateStatements GuardPolicy.guarded
  split
  · exact ⟨_, rfl⟩
  · exact ⟨_, rfl⟩

/-- The values of another name of date-time strings are converted in place, with no question. -/
theorem run_emit_alias (halias : r.dateAlias? typeName = some inner) :
    (emit policy (.delegate typeName nullable) value).run r =
      (.ok (dateStatements policy (nullable || inner) value), r) := by
  rw [emit, emitPlan, run_bind, run_get]
  dsimp only
  rw [halias]
  rfl

/-- For any other type its function is called, if the type is not empty. -/
theorem run_emit_delegate (halias : r.dateAlias? typeName = none) :
    (emit policy (.delegate typeName nullable) value).run r =
      (((isTypeEmpty typeName).run r).1.map fun empty =>
          if empty then [] else [callStatement typeName nullable value],
        ((isTypeEmpty typeName).run r).2) := by
  rw [emit, emitPlan, run_bind, run_get]
  dsimp only
  rw [halias]
  dsimp only
  rw [run_bind]
  rcases (isTypeEmpty typeName).run r with ⟨error | (_ | _), after⟩
  · rfl
  · rfl
  · rfl

/-- At most one statement carries out a delegation. -/
theorem length_emit_delegate {written : List Stmt}
    (h : ((emit policy (.delegate typeName nullable) value).run r).1 = .ok written) :
    written.length ≤ 1 := by
  rcases halias : r.dateAlias? typeName with _ | inner
  · rw [run_emit_delegate halias] at h
    rcases hasked : ((isTypeEmpty typeName).run r).1 with error | (_ | _)
    · rw [hasked] at h
      cases h
    · rw [hasked] at h
      cases h
      exact Nat.le_refl 1
    · rw [hasked] at h
      cases h
      exact Nat.zero_le 1
  · rw [run_emit_alias halias] at h
    obtain ⟨statement, hsingle⟩ := @dateStatements_singleton policy (nullable || inner) value
    rw [hsingle] at h
    cases h
    exact Nat.le_refl 1

theorem Registry.Ready.date : r.Ready (.date nullable) := by
  intro typeName inner hreach
  rcases Relation.ReflTransGen.cases_head hreach with heq | ⟨q, hstep, _⟩
  · cases heq
  · cases hstep

/-- All types on the way from another name of date-time strings to the date have their plans. -/
theorem Registry.AliasChain.ready {chain : List String} (h : r.AliasChain typeName chain) :
    r.Ready (.delegate typeName nullable) := by
  induction h generalizing nullable with
  | date hplan => exact .delegate hplan .date
  | delegate hplan _ ih => exact .delegate hplan ih

/-- Another name of date-time strings is found not to be empty, if it is asked for. -/
theorem isTypeEmpty_alias (hsound : r.Sound) (halias : r.dateAlias? typeName = some inner) :
    ((isTypeEmpty typeName).run r).1 = .ok false := by
  obtain ⟨chain, hchain⟩ := aliasChain_of_aliasWithin halias
  have hready : r.Ready (.delegate typeName false) := hchain.ready
  obtain ⟨empty, after, hasked, _⟩ := hready.isTypeEmpty r (.refl hsound)
  obtain ⟨plan, hplan, hempty⟩ := (Current.refl hsound).isTypeEmpty hasked
  have hdate : r.HoldsDate (.delegate typeName false) := holdsDate_of_dateAlias? halias
  rw [hasked, hempty.2 ((holdsDate_delegate_iff hplan).1 hdate)]

/-- A type that is not registered is not converted, and nothing is asked. -/
theorem run_callSite_of_not_mem (hnew : typeName ∉ r.typeNames) :
    (callSite policy typeName value).run r = (.ok none, r) := by
  have hunknown : ¬ r.methods.contains typeName = true := fun h => hnew (OrderedMap.contains_iff.1 h)
  rw [callSite, run_bind, run_get]
  dsimp only
  rw [if_neg hunknown]
  rfl

/-- The call for a registered type is there if the type is not empty, and fails as the question does. -/
theorem callSite_asks (hsound : r.Sound) (hmem : typeName ∈ r.typeNames) :
    ∃ statement, ((callSite policy typeName value).run r).1 =
      ((isTypeEmpty typeName).run r).1.map fun empty => if empty then none else some statement := by
  have hknown : r.methods.contains typeName = true := OrderedMap.contains_iff.2 hmem
  rw [callSite, run_bind, run_get]
  dsimp only
  rw [if_pos hknown, run_bind]
  rcases halias : r.dateAlias? typeName with _ | inner
  · rw [run_emit_delegate halias]
    refine ⟨callStatement typeName false value, ?_⟩
    rcases ((isTypeEmpty typeName).run r).1 with error | (_ | _)
    · rfl
    · rfl
    · rfl
  · rw [run_emit_alias halias, isTypeEmpty_alias hsound halias]
    obtain ⟨statement, hsingle⟩ := @dateStatements_singleton policy (false || inner) value
    rw [hsingle]
    exact ⟨statement, rfl⟩

end Delegations

/-! ## Plans and functions -/

section Plans

variable {r : Registry} {plan : Plan} {typeName : String}

/-- Both ways to go about a plan succeed and agree. -/
theorem emit_agrees (hsound : r.Sound) (hready : r.Ready plan) (hknows : r.Knows plan)
    (policy : GuardPolicy) (value : Expr) :
    ∃ written empty, ((emit policy plan value).run r).1 = .ok written ∧
      ((isPlanEmpty plan).run r).1 = .ok empty ∧ (written = [] ↔ empty = true) := by
  have hcurrent : r.Current r := .refl hsound
  obtain ⟨written, after, hwritten, _⟩ := hready.emitPlan policy .root value r hcurrent
  obtain ⟨empty, asked, hempty, _⟩ := hready.isPlanEmpty hknows r hcurrent
  have hexact := (isPlanEmpty_exact hsound plan).1 empty hempty
  refine ⟨written, empty, by rw [emit, hwritten], by rw [hempty], ?_⟩
  rw [emitPlan_statements hcurrent hwritten, statements_eq_nil_iff, ← hexact.holdsDate,
    Bool.not_eq_false]

/-- The function for a type with its plan is missing where the type is empty, and where it is another
name of date-time strings. -/
theorem typeFunction_agrees (hsound : r.Sound) (hplan : r.plan? typeName = some plan)
    (hready : r.Ready plan) (policy : GuardPolicy) :
    ∃ own empty, ((typeFunction policy typeName).run r).1 = .ok own ∧
      ((isTypeEmpty typeName).run r).1 = .ok empty ∧
        (own = none ↔ empty = true ∨ (r.dateAlias? typeName).isSome) := by
  have hcurrent : r.Current r := .refl hsound
  have hdelegate : r.Ready (.delegate typeName false) := .delegate hplan hready
  obtain ⟨own, after, hown, _⟩ := hdelegate.typeFunction policy r hcurrent
  obtain ⟨empty, asked, hempty, _⟩ := hdelegate.isTypeEmpty r hcurrent
  obtain ⟨found, hfound, hexact⟩ := hcurrent.isTypeEmpty hempty
  rw [hplan, Option.some_inj] at hfound
  subst hfound
  refine ⟨own, empty, by rw [hown], by rw [hempty], ?_⟩
  rw [typeFunction_eq hcurrent hown, typeFunction?, hplan, Option.bind_some]
  constructor
  · intro hnone
    by_contra hneither
    rw [not_or] at hneither
    have hneeds : r.NeedsFunction typeName plan :=
      ⟨hplan, hexact.1 (by simpa using hneither.1), by simpa using hneither.2⟩
    rw [if_pos hneeds] at hnone
    cases hnone
  · intro heither
    refine if_neg fun hneeds => ?_
    rcases heither with hempty | halias
    · rw [hexact.2 hneeds.holdsDate] at hempty
      cases hempty
    · rw [hneeds.notAlias] at halias
      cases halias

/-- A type that is found not to be empty has a plan afterwards, and what is written for the plan is
something. -/
theorem plan?_of_not_empty (hsound : r.Sound) {after : Registry}
    (hasked : (isTypeEmpty typeName).run r = (.ok false, after)) :
    ∃ plan, after.plan? typeName = some plan ∧ ∀ policy value written,
      ((emit policy plan value).run after).1 = .ok written → written ≠ [] := by
  have hcurrent : r.Current r := .refl hsound
  obtain ⟨plan, hplan, hempty⟩ := hcurrent.isTypeEmpty hasked
  have hafter : r.Current after := hcurrent.next (isTypeEmpty_consults typeName) hasked
  refine ⟨plan, (plan?_of_methods hafter.methods typeName).trans hplan, ?_⟩
  intro policy value written hwritten
  rcases hrun : (emit policy plan value).run after with ⟨result, last⟩
  rw [hrun] at hwritten
  dsimp only at hwritten
  subst hwritten
  rw [emitPlan_statements hafter hrun, Ne, statements_eq_nil_iff, not_not]
  exact hempty.1 rfl

theorem plan?_of_typeFunctions {policy : GuardPolicy} {typeNames : List String} {now after : Registry}
    {functions : List Function} (h : r.Current now)
    (hrun : (typeFunctions policy typeNames).run now = (.ok functions, after)) :
    ∀ typeName ∈ typeNames, ∃ plan, r.plan? typeName = some plan := by
  induction typeNames generalizing now after functions with
  | nil => simp
  | cons typeName rest ih =>
      obtain ⟨own, middle, hown, hlast⟩ := run_bind_ok hrun
      obtain ⟨others, last, hothers, _⟩ := run_bind_ok hlast
      have hmiddle := h.next (typeFunction_consults policy typeName) hown
      obtain ⟨empty, asked, hasked, _⟩ := run_bind_ok hown
      obtain ⟨plan, hplan, _⟩ := h.isTypeEmpty hasked
      exact List.forall_mem_cons.2 ⟨⟨plan, hplan⟩, ih hmiddle hothers⟩

/-- All functions can be written exactly if every type has its plan. -/
theorem allTypeFunctions_ok_iff (hsound : r.Sound) {policy : GuardPolicy} :
    (∃ functions, ((allTypeFunctions policy).run r).1 = .ok functions) ↔ r.AllPlanned := by
  have hcurrent : r.Current r := .refl hsound
  have hstart : (allTypeFunctions policy).run r = (typeFunctions policy r.typeNames).run r := by
    rw [allTypeFunctions, run_bind, run_get]
  rw [hstart]
  constructor
  · rintro ⟨functions, hok⟩
    rcases hrun : (typeFunctions policy r.typeNames).run r with ⟨result, after⟩
    rw [hrun] at hok
    dsimp only at hok
    subst hok
    exact plan?_of_typeFunctions hcurrent hrun
  · intro hall
    have hnames : ∀ typeName ∈ r.typeNames, typeName ∈ r.typeNames := fun _ h => h
    obtain ⟨functions, after, hrun, _⟩ := hall.typeFunctions hsound policy hnames r hcurrent
    exact ⟨functions, by rw [hrun]⟩

end Plans

/-! ## Any registry -/

/-- Whatever calls were made on a registry, and whatever they have decided: for a plan of registered
types from which no type without a plan is reached, the statements and the verdict are both there, and
there are no statements exactly if the verdict is that the plan is empty. A delegation takes at most one
statement, so a call is there exactly for the registered types that are not empty. The function for a
type with its plan is missing exactly where the type is empty or another name of date-time strings:
once the type is found not to be empty, neither a plan nor a body can be missing. And all functions can
be written exactly if every registered type has its plan. -/
theorem emission_agrees_with_emptiness (calls : List (Document × Call)) :
    let r := Registry.lifetime calls
    (∀ plan, r.Knows plan → ¬ r.MeetsUnplanned plan → ∀ policy value,
      ∃ written empty, ((emit policy plan value).run r).1 = .ok written ∧
        ((isPlanEmpty plan).run r).1 = .ok empty ∧ (written = [] ↔ empty = true)) ∧
    (∀ policy typeName nullable value written,
      ((emit policy (.delegate typeName nullable) value).run r).1 = .ok written →
        written.length ≤ 1) ∧
    (∀ policy typeName value,
      (typeName ∉ r.typeNames → ((callSite policy typeName value).run r).1 = .ok none) ∧
      (typeName ∈ r.typeNames → ∃ statement, ((callSite policy typeName value).run r).1 =
        ((isTypeEmpty typeName).run r).1.map fun empty =>
          if empty then none else some statement)) ∧
    (∀ typeName plan, r.plan? typeName = some plan → ¬ r.MeetsUnplanned plan → ∀ policy,
      ∃ own empty, ((typeFunction policy typeName).run r).1 = .ok own ∧
        ((isTypeEmpty typeName).run r).1 = .ok empty ∧
          (own = none ↔ empty = true ∨ (r.dateAlias? typeName).isSome)) ∧
    (∀ typeName after, (isTypeEmpty typeName).run r = (.ok false, after) →
      ∃ plan, after.plan? typeName = some plan ∧ ∀ policy value written,
        ((emit policy plan value).run after).1 = .ok written → written ≠ []) ∧
    ∀ policy, (∃ functions, ((allTypeFunctions policy).run r).1 = .ok functions) ↔
      r.AllPlanned := by
  intro r
  have hsound : r.Sound := Registry.lifetime_sound calls
  refine ⟨fun plan hknows hmeets => ?_, fun _ _ _ _ _ => length_emit_delegate, fun _ _ _ => ?_,
    fun typeName plan hplan hmeets => ?_, fun _ _ => plan?_of_not_empty hsound,
    fun _ => allTypeFunctions_ok_iff hsound⟩
  · exact emit_agrees hsound ((ready_iff hsound.knows hknows).2 hmeets) hknows
  · exact ⟨fun hnew => by rw [run_callSite_of_not_mem hnew], callSite_asks hsound⟩
  · have hknows : r.Knows plan := hsound.knows typeName plan hplan
    exact typeFunction_agrees hsound hplan ((ready_iff hsound.knows hknows).2 hmeets)

end DateReviver
