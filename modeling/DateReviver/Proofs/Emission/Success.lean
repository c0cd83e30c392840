import DateReviver.Generate
import DateReviver.Proofs.Emission.Functions

/-!
# Emission does not fail

Where every type that is reached from a plan has its own plan, no question about these types can fail,
and emission asks about no others. So whatever is written for such a plan is written in full; and where
every registered type has its plan, so is everything else.
-/

namespace DateReviver

open DateReviver.TypeScript Generation Registry

/-- Every type has its plan. -/
def Registry.AllPlanned (r : Registry) : Prop :=
  ∀ typeName ∈ r.typeNames, ∃ plan, r.plan? typeName = some plan

/-- Every type that is reached from a plan has its plan. -/
def Registry.Ready (r : Registry) (plan : Plan) : Prop :=
  ∀ typeName nullable, r.Reaches plan (.delegate typeName nullable) →
    ∃ own, r.plan? typeName = some own

/-- A step that only asks has a result wherever the types and plans are those of a registry. -/
def Registry.Answers {α : Type} (r : Registry) (x : Generation α) : Prop :=
  ∀ now, r.Current now → ∃ a after, x.run now = (.ok a, after) ∧ r.Current after

namespace Registry

section Answers

variable {α β : Type} {r : Registry}

theorem Answers.pure (a : α) : r.Answers (pure a : Generation α) :=
  fun now h => ⟨a, now, rfl, h⟩

theorem Answers.note (n : Note) : r.Answers (Generation.note n) := by
  intro now h
  exact ⟨(), _, rfl, h.next (note_consults n) rfl⟩

theorem Answers.bind {x : Generation α} {f : α → Generation β} (hx : r.Answers x)
    (hf : ∀ a, r.Answers (f a)) : r.Answers (x >>= f) := by
  intro now h
  obtain ⟨a, middle, hrun, hmiddle⟩ := hx now h
  obtain ⟨b, after, hlast, hafter⟩ := hf a middle hmiddle
  refine ⟨b, after, ?_, hafter⟩
  rw [run_bind, hrun]
  exact hlast

theorem Answers.get_bind {f : Registry → Generation β}
    (hf : ∀ now, r.Current now → r.Answers (f now)) :
    r.Answers ((get : Generation Registry) >>= f) := by
  intro now h
  rw [run_bind, run_get]
  exact hf now h now h

end Answers

/-! ## Plans that lead to planned types -/

variable {r now : Registry} {plan own : Plan} {typeName : String} {nullable : Bool}

theorem Current.knows (h : r.Current now) {typeName : String} {plan : Plan}
    (hplan : r.plan? typeName = some plan) : r.Knows plan := by
  have hknown : now.Knows plan := h.sound.knows typeName plan ((plan?_of_methods h.methods _).trans hplan)
  exact (Extends.of_methods h.methods.symm).knows hknown

theorem Ready.of_step {p q : Plan} (h : r.Ready p) (hstep : r.Step p q) : r.Ready q :=
  fun typeName nullable hreach => h typeName nullable (.head hstep hreach)

theorem Ready.of_delegate (h : r.Ready (.delegate typeName nullable)) :
    ∃ own, r.plan? typeName = some own ∧ r.Ready own := by
  obtain ⟨own, hown⟩ := h typeName nullable .refl
  exact ⟨own, hown, h.of_step (.unfold hown)⟩

theorem Ready.delegate (hplan : r.plan? typeName = some own) (h : r.Ready own) :
    r.Ready (.delegate typeName nullable) := by
  intro name inner hreach
  rcases Relation.ReflTransGen.cases_head hreach with heq | ⟨q, hstep, hrest⟩
  · cases heq
    exact ⟨own, hplan⟩
  · cases hstep with
    | unfold hfound =>
        rw [hplan, Option.some_inj] at hfound
        exact h name inner (hfound ▸ hrest)

/-- A plan that names registered types leads to registered types only, so a type without a plan is
the one thing that can be in the way. -/
theorem ready_iff (hclosed : ∀ typeName plan, r.plan? typeName = some plan → r.Knows plan)
    (hknows : r.Knows plan) : r.Ready plan ↔ ¬ r.MeetsUnplanned plan := by
  constructor
  · rintro h ⟨typeName, nullable, hreach, _, hnone⟩
    obtain ⟨own, hown⟩ := h typeName nullable hreach
    rw [hnone] at hown
    cases hown
  · intro h typeName nullable hreach
    by_contra hnot
    have hnone : r.plan? typeName = none :=
      Option.eq_none_iff_forall_ne_some.2 fun own hown => hnot ⟨own, hown⟩
    cases knows_of_reaches hclosed hknows hreach with
    | delegate hmem => exact h ⟨typeName, nullable, hreach, hmem, hnone⟩

theorem AllPlanned.ready (hall : r.AllPlanned)
    (hclosed : ∀ typeName plan, r.plan? typeName = some plan → r.Knows plan)
    (hknows : r.Knows plan) : r.Ready plan := by
  intro typeName nullable hreach
  cases knows_of_reaches hclosed hknows hreach with
  | delegate hmem => exact hall typeName hmem

/-- A question about such a plan fails at no type. -/
theorem Ready.not_blames (h : r.Ready plan) (hcurrent : r.Current now) {error : GenerationError} :
    ¬ now.Blames plan error := by
  rintro ⟨typeName, nullable, _, hreach, _, hnone⟩
  have hreached : r.Reaches plan (.delegate typeName nullable) :=
    (Extends.of_methods hcurrent.methods.symm).reaches hreach
  obtain ⟨own, hown⟩ := h typeName nullable hreached
  rw [plan?_of_methods hcurrent.methods, hown] at hnone
  cases hnone

theorem Ready.isTypeEmpty (h : r.Ready (.delegate typeName nullable)) :
    r.Answers (Generation.isTypeEmpty typeName) := by
  intro now hcurrent
  obtain ⟨own, hown, hready⟩ := h.of_delegate
  rcases hrun : (Generation.isTypeEmpty typeName).run now with ⟨error | empty, after⟩
  · have hmem : typeName ∈ now.typeNames :=
      mem_typeNames_of_plan? ((plan?_of_methods hcurrent.methods typeName).trans hown)
    have hblames := (isTypeEmpty_exact hcurrent.sound typeName).2 error hmem hrun
    exact absurd hblames (Ready.not_blames (.delegate hown hready) hcurrent)
  · exact ⟨empty, after, rfl, hcurrent.next (isTypeEmpty_consults typeName) hrun⟩

theorem Ready.isPlanEmpty (h : r.Ready plan) (hknows : r.Knows plan) :
    r.Answers (Generation.isPlanEmpty plan) := by
  intro now hcurrent
  rcases hrun : (Generation.isPlanEmpty plan).run now with ⟨error | empty, after⟩
  · have hknown : now.Knows plan := (Extends.of_methods hcurrent.methods).knows hknows
    have hblames := (isPlanEmpty_exact hcurrent.sound plan).2 error hknown hrun
    exact absurd hblames (h.not_blames hcurrent)
  · exact ⟨empty, after, rfl, hcurrent.next (isPlanEmpty_consults plan) hrun⟩

mutual

theorem Ready.emitPlan (policy : GuardPolicy) (scope : Scope) {plan : Plan} (value : Expr)
    (h : r.Ready plan) : r.Answers (DateReviver.emitPlan policy scope plan value) := by
  cases plan with
  | primitive =>
      rw [DateReviver.emitPlan]
      exact .pure _
  | date nullable =>
      rw [DateReviver.emitPlan]
      exact .pure _
  | delegate typeName nullable =>
      rw [DateReviver.emitPlan]
      refine .get_bind fun now _ => ?_
      split
      · exact .pure _
      · refine h.isTypeEmpty.bind fun empty => ?_
        split <;> exact .pure _
  | array item nullable =>
      rw [DateReviver.emitPlan]
      refine (Ready.emitPlan policy scope.enterLoop _ (h.of_step .item)).bind fun body => ?_
      split <;> exact .pure _
  | map values nullable =>
      rw [DateReviver.emitPlan]
      refine (Ready.emitPlan policy scope.enterLoop _ (h.of_step .value)).bind fun body => ?_
      split <;> exact .pure _
  | object properties nullable =>
      rw [DateReviver.emitPlan]
      have hproperties : ∀ property ∈ properties, r.Ready property.2 :=
        fun ⟨_, _⟩ hmem => h.of_step (.property hmem)
      have hbody := Ready.emitProperties policy scope.enterProperty value hproperties
      refine hbody.bind fun body => ?_
      split <;> exact .pure _

theorem Ready.emitProperties (policy : GuardPolicy) (scope : Scope)
    {properties : List (String × Plan)} (object : Expr)
    (h : ∀ property ∈ properties, r.Ready property.2) :
    r.Answers (DateReviver.emitProperties policy scope properties object) := by
  cases properties with
  | nil =>
      rw [DateReviver.emitProperties]
      exact .pure _
  | cons property rest =>
      obtain ⟨name, plan⟩ := property
      rw [DateReviver.emitProperties]
      have hown := h _ List.mem_cons_self
      have hrest := fun other hother => h other (List.mem_cons_of_mem _ hother)
      refine (Ready.emitPlan policy scope _ hown).bind fun own => ?_
      exact (Ready.emitProperties policy scope object hrest).bind fun others => .pure _

end

theorem Ready.typeFunction (policy : GuardPolicy) (h : r.Ready (.delegate typeName nullable)) :
    r.Answers (DateReviver.typeFunction policy typeName) := by
  unfold DateReviver.typeFunction
  refine h.isTypeEmpty.bind fun empty => ?_
  split
  · exact .pure _
  · refine .get_bind fun now hnow => ?_
    split
    · exact .pure _
    · rename_i plan hplan
      rw [plan?_of_methods hnow.methods] at hplan
      refine .get_bind fun now _ => ?_
      split
      · exact (Answers.note _).bind fun _ => .pure _
      · refine Answers.bind (Ready.emitPlan _ _ _ (h.of_step (.unfold hplan))) fun body => ?_
        split <;> exact .pure _

/-! ## Registries with planned types only -/

theorem AllPlanned.isTypeEmpty (hall : r.AllPlanned) {typeName : String}
    (hmem : typeName ∈ r.typeNames) : r.Answers (Generation.isTypeEmpty typeName) := by
  intro now hcurrent
  have hready : r.Ready (.delegate typeName false) :=
    hall.ready (fun _ _ => hcurrent.knows) (.delegate hmem)
  exact hready.isTypeEmpty now hcurrent

theorem AllPlanned.emitPlan (hall : r.AllPlanned) (policy : GuardPolicy) (scope : Scope)
    {plan : Plan} (value : Expr) (hknows : r.Knows plan) :
    r.Answers (DateReviver.emitPlan policy scope plan value) := by
  intro now hcurrent
  have hready : r.Ready plan := hall.ready (fun _ _ => hcurrent.knows) hknows
  exact hready.emitPlan policy scope value now hcurrent

theorem AllPlanned.typeFunction (hall : r.AllPlanned) (hsound : r.Sound) (policy : GuardPolicy)
    {typeName : String} (hmem : typeName ∈ r.typeNames) :
    r.Answers (DateReviver.typeFunction policy typeName) := by
  have hready : r.Ready (.delegate typeName false) := hall.ready hsound.knows (.delegate hmem)
  exact hready.typeFunction policy

theorem AllPlanned.typeFunctions (hall : r.AllPlanned) (hsound : r.Sound) (policy : GuardPolicy)
    {typeNames : List String} (hnames : ∀ typeName ∈ typeNames, typeName ∈ r.typeNames) :
    r.Answers (DateReviver.typeFunctions policy typeNames) := by
  induction typeNames with
  | nil => exact .pure _
  | cons typeName rest ih =>
      have hown := hall.typeFunction hsound policy (hnames _ List.mem_cons_self)
      have hrest := fun name hname => hnames name (List.mem_cons_of_mem _ hname)
      exact hown.bind fun own => (ih hrest).bind fun others => .pure _

theorem AllPlanned.operationFunctions (hall : r.AllPlanned) (policy : GuardPolicy)
    {operations : List OperationPlan}
    (hknows : ∀ operation ∈ operations, r.Knows operation.plan) :
    r.Answers (DateReviver.operationFunctions policy operations) := by
  induction operations with
  | nil => exact .pure _
  | cons operation rest ih =>
      have hown : r.Answers (operationFunction policy operation) := by
        unfold operationFunction
        refine Answers.bind (hall.emitPlan _ _ _ (hknows _ List.mem_cons_self)) fun body => ?_
        split <;> exact .pure _
      have hrest := fun other hother => hknows other (List.mem_cons_of_mem _ hother)
      exact hown.bind fun own => (ih hrest).bind fun others => .pure _

theorem AllPlanned.callSite (hall : r.AllPlanned) (policy : GuardPolicy) (typeName : String)
    (value : Expr) : r.Answers (DateReviver.callSite policy typeName value) := by
  unfold DateReviver.callSite
  refine .get_bind fun now hnow => ?_
  split
  · rename_i hregistered
    have hmem : typeName ∈ r.typeNames := by
      rw [hnow.methods] at hregistered
      exact OrderedMap.contains_iff.1 hregistered
    refine Answers.bind (hall.emitPlan _ _ _ (.delegate hmem)) fun written => ?_
    split <;> exact .pure _
  · exact .pure _

theorem AllPlanned.callSites (hall : r.AllPlanned) (policy : GuardPolicy)
    (typeNames : List String) : r.Answers (DateReviver.callSites policy typeNames) := by
  induction typeNames with
  | nil => exact .pure _
  | cons typeName rest ih =>
      exact (hall.callSite policy typeName _).bind fun own => ih.bind fun others => .pure _

end Registry

end DateReviver
