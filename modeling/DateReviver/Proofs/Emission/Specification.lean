import DateReviver.Proofs.Emission.Alias
import DateReviver.Proofs.Emission.Consultation
import DateReviver.Proofs.Emptiness.Exactness

/-!
# What emission writes

The statements for a plan depend on the types with their plans and on nothing that was asked before:
a function is called exactly if dates are reached from the plan of its type. They are given here
without questions, as what every successful emission writes. There are none exactly if no date is
reached from the plan.
-/

namespace DateReviver

open DateReviver.TypeScript Generation

namespace Registry

open Classical in
mutual

/-- The statements that carry out a plan on a value. -/
noncomputable def statements (r : Registry) (policy : GuardPolicy) (scope : Scope) (plan : Plan)
    (value : Expr) : List Stmt :=
  match plan with
  | .primitive => []
  | .date nullable => dateStatements policy nullable value
  | .delegate typeName nullable =>
      match r.dateAlias? typeName with
      | some inner => dateStatements policy (nullable || inner) value
      | none =>
          if r.HoldsDate (.delegate typeName nullable) then [callStatement typeName nullable value]
          else []
  | .array item nullable =>
      let index := loopVariable "i" scope.loops
      let body := r.statements policy scope.enterLoop item (.index value (.ident index))
      if body.isEmpty then []
      else policy.guarded nullable value [.forIndex index value body]
  | .map values nullable =>
      let key := loopVariable "key" scope.loops
      let body := r.statements policy scope.enterLoop values (.index value (.ident key))
      if body.isEmpty then []
      else
        let keys := .call (.member (.ident "Object") "keys") [value]
        policy.guarded nullable value [.forOf key keys body]
  | .object properties nullable =>
      let body := r.propertyStatements policy scope.enterProperty properties value
      if body.isEmpty || !scope.nested then body
      else policy.guarded nullable value body

/-- The statements that carry out the plans of properties on an object. -/
noncomputable def propertyStatements (r : Registry) (policy : GuardPolicy) (scope : Scope)
    (properties : List (String × Plan)) (object : Expr) : List Stmt :=
  match properties with
  | [] => []
  | (name, plan) :: rest =>
      r.statements policy scope plan (object.property name)
        ++ r.propertyStatements policy scope rest object

end

/-! ### Plan by plan -/

section Equations

variable {r : Registry} {policy : GuardPolicy} {scope : Scope} {nullable : Bool} {value : Expr}

theorem statements_primitive : r.statements policy scope .primitive value = [] :=
  rfl

theorem statements_date : r.statements policy scope (.date nullable) value =
    dateStatements policy nullable value :=
  rfl

open Classical in
theorem statements_delegate {typeName : String} :
    r.statements policy scope (.delegate typeName nullable) value =
      match r.dateAlias? typeName with
      | some inner => dateStatements policy (nullable || inner) value
      | none =>
          if r.HoldsDate (.delegate typeName nullable) then [callStatement typeName nullable value]
          else [] :=
  rfl

theorem statements_array {item : Plan} :
    r.statements policy scope (.array item nullable) value =
      if (r.statements policy scope.enterLoop item
          (.index value (.ident (loopVariable "i" scope.loops)))).isEmpty then []
      else policy.guarded nullable value [.forIndex (loopVariable "i" scope.loops) value
        (r.statements policy scope.enterLoop item
          (.index value (.ident (loopVariable "i" scope.loops))))] :=
  rfl

theorem statements_map {values : Plan} :
    r.statements policy scope (.map values nullable) value =
      if (r.statements policy scope.enterLoop values
          (.index value (.ident (loopVariable "key" scope.loops)))).isEmpty then []
      else policy.guarded nullable value [.forOf (loopVariable "key" scope.loops)
        (.call (.member (.ident "Object") "keys") [value])
        (r.statements policy scope.enterLoop values
          (.index value (.ident (loopVariable "key" scope.loops))))] :=
  rfl

theorem statements_object {properties : List (String × Plan)} :
    r.statements policy scope (.object properties nullable) value =
      if (r.propertyStatements policy scope.enterProperty properties value).isEmpty
          || !scope.nested then
        r.propertyStatements policy scope.enterProperty properties value
      else policy.guarded nullable value
        (r.propertyStatements policy scope.enterProperty properties value) :=
  rfl

theorem propertyStatements_nil : r.propertyStatements policy scope [] value = [] :=
  rfl

theorem propertyStatements_cons {name : String} {plan : Plan} {rest : List (String × Plan)} :
    r.propertyStatements policy scope ((name, plan) :: rest) value =
      r.statements policy scope plan (value.property name)
        ++ r.propertyStatements policy scope rest value :=
  rfl

end Equations

/-! ## Every emission writes them -/

theorem holdsDate_of_methods {r r' : Registry} (h : r'.methods = r.methods) {plan : Plan} :
    r.HoldsDate plan ↔ r'.HoldsDate plan :=
  ⟨fun ⟨nullable, hreach⟩ => ⟨nullable, (Extends.of_methods h).reaches hreach⟩,
    fun ⟨nullable, hreach⟩ => ⟨nullable, (Extends.of_methods h.symm).reaches hreach⟩⟩

theorem plan?_of_methods {r r' : Registry} (h : r'.methods = r.methods) (typeName : String) :
    r'.plan? typeName = r.plan? typeName := by
  rw [plan?, plan?, h]

theorem aliasWithin_of_methods {r r' : Registry} (h : r'.methods = r.methods) (steps : Nat)
    (nullable : Bool) (typeName : String) :
    r'.aliasWithin steps nullable typeName = r.aliasWithin steps nullable typeName := by
  induction steps generalizing nullable typeName with
  | zero => rfl
  | succ steps ih =>
      rw [aliasWithin, aliasWithin, plan?_of_methods h]
      split
      · rfl
      · exact ih _ _
      · rfl

theorem dateAlias?_of_methods {r r' : Registry} (h : r'.methods = r.methods) (typeName : String) :
    r'.dateAlias? typeName = r.dateAlias? typeName := by
  rw [dateAlias?, dateAlias?, h]
  exact aliasWithin_of_methods h _ _ _

/-- A registry in the middle of a run that only asks: the types and plans of the first, and right
verdicts. -/
structure Current (r now : Registry) : Prop where
  methods : now.methods = r.methods
  sound : now.Sound

theorem Current.refl {r : Registry} (h : r.Sound) : r.Current r :=
  ⟨rfl, h⟩

theorem Current.next {α : Type} {r now : Registry} {x : Generation α} (h : r.Current now)
    (hx : Changes Consulted x) {a : α} {after : Registry} (hrun : x.run now = (.ok a, after)) :
    r.Current after := by
  have hconsulted := hx now
  rw [hrun] at hconsulted
  exact ⟨hconsulted.methods.trans h.methods, hconsulted.sound h.sound⟩

/-- The answer about a type says whether dates are reached from it. -/
theorem Current.isTypeEmpty {r now after : Registry} (h : r.Current now) {typeName : String}
    {empty : Bool} (hrun : (Generation.isTypeEmpty typeName).run now = (.ok empty, after)) :
    ∃ plan, r.plan? typeName = some plan ∧ (empty = false ↔ r.HoldsDate plan) := by
  obtain ⟨plan, hplan, hexact⟩ := (isTypeEmpty_exact h.sound typeName).1 empty hrun
  rw [plan?_of_methods h.methods] at hplan
  exact ⟨plan, hplan, hexact.holdsDate.trans (holdsDate_of_methods h.methods).symm⟩

end Registry

open Registry

mutual

theorem emitPlan_statements {r now after : Registry} {policy : GuardPolicy} {scope : Scope}
    {plan : Plan} {value : Expr} {written : List Stmt} (h : r.Current now)
    (hrun : (emitPlan policy scope plan value).run now = (.ok written, after)) :
    written = r.statements policy scope plan value := by
  cases plan with
  | primitive =>
      rw [emitPlan] at hrun
      rw [statements_primitive]
      cases hrun
      rfl
  | date nullable =>
      rw [emitPlan] at hrun
      rw [statements_date]
      cases hrun
      rfl
  | delegate typeName nullable =>
      rw [emitPlan, run_bind, run_get] at hrun
      dsimp only at hrun
      rw [dateAlias?_of_methods h.methods] at hrun
      rw [statements_delegate]
      rcases halias : r.dateAlias? typeName with _ | inner
      · rw [halias] at hrun
        obtain ⟨empty, middle, hasked, hlast⟩ := run_bind_ok hrun
        obtain ⟨plan, hplan, hempty⟩ := h.isTypeEmpty hasked
        rw [← holdsDate_delegate_iff hplan] at hempty
        split at hlast
        · rename_i htrue
          cases hlast
          dsimp only
          rw [if_neg]
          exact fun hdate => by simp [hempty.2 hdate] at htrue
        · rename_i hfalse
          cases hlast
          dsimp only
          rw [if_pos]
          exact hempty.1 (by simpa using hfalse)
      · rw [halias] at hrun
        cases hrun
        rfl
  | array item nullable =>
      rw [emitPlan] at hrun
      obtain ⟨body, middle, hbody, hlast⟩ := run_bind_ok hrun
      have heq := emitPlan_statements h hbody
      rw [statements_array, ← heq]
      split at hlast
      · rename_i hempty
        cases hlast
        rw [if_pos hempty]
      · rename_i hempty
        cases hlast
        rw [if_neg hempty]
  | map values nullable =>
      rw [emitPlan] at hrun
      obtain ⟨body, middle, hbody, hlast⟩ := run_bind_ok hrun
      have heq := emitPlan_statements h hbody
      rw [statements_map, ← heq]
      split at hlast
      · rename_i hempty
        cases hlast
        rw [if_pos hempty]
      · rename_i hempty
        cases hlast
        rw [if_neg hempty]
  | object properties nullable =>
      rw [emitPlan] at hrun
      obtain ⟨body, middle, hbody, hlast⟩ := run_bind_ok hrun
      have heq := emitProperties_statements h hbody
      rw [statements_object, ← heq]
      split at hlast
      · rename_i hbare
        cases hlast
        rw [if_pos hbare]
      · rename_i hbare
        cases hlast
        rw [if_neg hbare]

theorem emitProperties_statements {r now after : Registry} {policy : GuardPolicy} {scope : Scope}
    {properties : List (String × Plan)} {object : Expr} {written : List Stmt} (h : r.Current now)
    (hrun : (emitProperties policy scope properties object).run now = (.ok written, after)) :
    written = r.propertyStatements policy scope properties object := by
  cases properties with
  | nil =>
      rw [emitProperties] at hrun
      rw [propertyStatements_nil]
      cases hrun
      rfl
  | cons property rest =>
      obtain ⟨name, plan⟩ := property
      rw [emitProperties] at hrun
      obtain ⟨own, middle, hown, hlast⟩ := run_bind_ok hrun
      obtain ⟨others, last, hothers, hpure⟩ := run_bind_ok hlast
      have hmiddle := h.next (emitPlan_consults policy scope plan _) hown
      rw [propertyStatements_cons, ← emitPlan_statements h hown,
        ← emitProperties_statements hmiddle hothers]
      cases hpure
      rfl

end

/-! ## Nothing is written where no date is reached -/

theorem guarded_ne_nil {policy : GuardPolicy} {nullable : Bool} {value : Expr} {body : List Stmt}
    (h : body ≠ []) : policy.guarded nullable value body ≠ [] := by
  unfold GuardPolicy.guarded
  split
  · exact List.cons_ne_nil _ _
  · exact h

namespace Registry

variable {r : Registry} {policy : GuardPolicy}

mutual

theorem statements_eq_nil_iff {scope : Scope} {plan : Plan} {value : Expr} :
    r.statements policy scope plan value = [] ↔ ¬ r.HoldsDate plan := by
  cases plan with
  | primitive =>
      rw [statements_primitive]
      exact ⟨fun _ => not_holdsDate_primitive, fun _ => rfl⟩
  | date nullable =>
      rw [statements_date]
      exact ⟨fun h => absurd h (guarded_ne_nil (List.cons_ne_nil _ _)),
        fun h => absurd holdsDate_date h⟩
  | delegate typeName nullable =>
      rw [statements_delegate]
      split
      · rename_i inner hinner
        exact ⟨fun h => absurd h (guarded_ne_nil (List.cons_ne_nil _ _)),
          fun h => absurd (holdsDate_of_dateAlias? hinner) h⟩
      · split
        · rename_i hdate
          exact ⟨fun h => absurd h (List.cons_ne_nil _ _), fun h => absurd hdate h⟩
        · rename_i hnot
          exact ⟨fun _ => hnot, fun _ => rfl⟩
  | array item nullable =>
      rw [statements_array, holdsDate_array_iff, ← statements_eq_nil_iff]
      split
      · rename_i hempty
        exact ⟨fun _ => List.isEmpty_iff.1 hempty, fun _ => rfl⟩
      · rename_i hempty
        exact ⟨fun h => absurd h (guarded_ne_nil (List.cons_ne_nil _ _)),
          fun h => absurd (List.isEmpty_iff.2 h) hempty⟩
  | map values nullable =>
      rw [statements_map, holdsDate_map_iff, ← statements_eq_nil_iff]
      split
      · rename_i hempty
        exact ⟨fun _ => List.isEmpty_iff.1 hempty, fun _ => rfl⟩
      · rename_i hempty
        exact ⟨fun h => absurd h (guarded_ne_nil (List.cons_ne_nil _ _)),
          fun h => absurd (List.isEmpty_iff.2 h) hempty⟩
  | object properties nullable =>
      rw [statements_object, holdsDate_object_iff, ← propertyStatements_eq_nil_iff]
      split
      · rfl
      · rename_i hbare
        rw [Bool.or_eq_true, not_or, List.isEmpty_iff] at hbare
        exact ⟨fun h => absurd h (guarded_ne_nil hbare.1), fun h => absurd h hbare.1⟩

theorem propertyStatements_eq_nil_iff {scope : Scope} {properties : List (String × Plan)}
    {object : Expr} : r.propertyStatements policy scope properties object = [] ↔
      ¬ ∃ property ∈ properties, r.HoldsDate property.2 := by
  cases properties with
  | nil =>
      rw [propertyStatements_nil]
      simp
  | cons property rest =>
      obtain ⟨name, plan⟩ := property
      rw [propertyStatements_cons, List.append_eq_nil_iff, statements_eq_nil_iff,
        propertyStatements_eq_nil_iff]
      simp

end

end Registry

end DateReviver
