import DateReviver.Proofs.Emission.Functions
import DateReviver.Proofs.Emission.Names
import DateReviver.Proofs.Planning.Parts
import DateReviver.Proofs.TypeScript.Occurrence

/-!
# What occurs in the statements for a plan

The statements for a plan call the functions of the types that the plan names, as far as these need
functions. They have a loop for each array and each map in the plan from whose items or entries dates
are reached, with a variable that tells the number of loops around it. They return nothing.
-/

namespace DateReviver

open DateReviver.TypeScript

/-! ## Guards -/

section Guarded

variable {policy : GuardPolicy} {nullable : Bool} {value : Expr} {body : List Stmt}

theorem callsAll_guarded (hvalue : value.calls = []) :
    Stmt.callsAll (policy.guarded nullable value body) = Stmt.callsAll body := by
  rcases policy with ⟨_ | _⟩ <;> rcases nullable with _ | _ <;>
    simp [GuardPolicy.guarded, GuardPolicy.test?, isDefined, isNotNull, Stmt.callsAll, Stmt.calls,
      Expr.calls, hvalue]

theorem loopsAll_guarded :
    Stmt.loopsAll (policy.guarded nullable value body) = Stmt.loopsAll body := by
  unfold GuardPolicy.guarded
  split
  · rw [Stmt.loopsAll_singleton, Stmt.loops]
  · rfl

theorem callsAll_dateStatements (hvalue : value.calls = []) :
    Stmt.callsAll (dateStatements policy nullable value) = [] := by
  rw [dateStatements, callsAll_guarded hvalue]
  simp [convertDate, Stmt.callsAll, Stmt.calls, Expr.calls, Expr.callsAll, hvalue]

theorem loopsAll_dateStatements : Stmt.loopsAll (dateStatements policy nullable value) = [] := by
  rw [dateStatements, loopsAll_guarded]
  rfl

theorem calls_callStatement {typeName : String} (hvalue : value.calls = []) :
    (callStatement typeName nullable value).calls = [functionName typeName] := by
  rcases nullable with _ | _ <;>
    simp [callStatement, isDefined, isNotNull, Stmt.callsAll, Stmt.calls, Expr.calls,
      Expr.callsAll, Expr.ident?, hvalue]

theorem loops_callStatement {typeName : String} :
    (callStatement typeName nullable value).loops = [] :=
  rfl

/-- A body that is left out if it is empty, or else wrapped into statements that call nothing
more. -/
theorem callsAll_unless {wrapped : List Stmt} {bare : Bool} (hbare : bare = true → body = [])
    (hwrapped : Stmt.callsAll wrapped = Stmt.callsAll body) :
    Stmt.callsAll (if bare then [] else wrapped) = Stmt.callsAll body := by
  split
  · rename_i h
    rw [hbare h]
  · exact hwrapped

end Guarded

/-! ## Calls -/

namespace Registry

/-- A plan names a type that needs a function, and the function has this name. -/
def Calls (r : Registry) (plan : Plan) (name : String) : Prop :=
  ∃ typeName own, plan.Mentions typeName ∧ r.NeedsFunction typeName own ∧
    functionName typeName = name

variable {r : Registry} {policy : GuardPolicy} {name : String}

theorem calls_array {item : Plan} {nullable : Bool} :
    r.Calls (.array item nullable) name ↔ r.Calls item name := by
  simp only [Calls, Plan.mentions_array]

theorem calls_map {values : Plan} {nullable : Bool} :
    r.Calls (.map values nullable) name ↔ r.Calls values name := by
  simp only [Calls, Plan.mentions_map]

theorem calls_object {properties : List (String × Plan)} {nullable : Bool} :
    r.Calls (.object properties nullable) name ↔
      ∃ property ∈ properties, r.Calls property.2 name := by
  simp only [Calls, Plan.mentions_object]
  constructor
  · rintro ⟨typeName, own, ⟨property, hmem, hmentions⟩, hneeds, hname⟩
    exact ⟨property, hmem, typeName, own, hmentions, hneeds, hname⟩
  · rintro ⟨property, hmem, typeName, own, hmentions, hneeds, hname⟩
    exact ⟨typeName, own, ⟨property, hmem, hmentions⟩, hneeds, hname⟩

theorem needsFunction_of_holdsDate {typeName : String} {nullable : Bool}
    (hdate : r.HoldsDate (.delegate typeName nullable)) (hnone : r.dateAlias? typeName = none) :
    ∃ own, r.NeedsFunction typeName own := by
  obtain ⟨own, hplan, hown⟩ := hdate.of_delegate
  exact ⟨own, hplan, hown, hnone⟩

theorem NeedsFunction.holdsDate_delegate {typeName : String} {own : Plan} {nullable : Bool}
    (h : r.NeedsFunction typeName own) : r.HoldsDate (.delegate typeName nullable) :=
  (holdsDate_delegate_iff h.plan?).2 h.holdsDate

mutual

/-- The statements for a plan call the functions of the types that it names and that need one. -/
theorem mem_callsAll_statements {scope : Scope} {plan : Plan} {value : Expr}
    (hvalue : value.calls = []) :
    name ∈ Stmt.callsAll (r.statements policy scope plan value) ↔ r.Calls plan name := by
  cases plan with
  | primitive =>
      rw [statements_primitive]
      simp [Stmt.callsAll, Calls, Plan.not_mentions_primitive]
  | date nullable =>
      rw [statements_date, callsAll_dateStatements hvalue]
      simp [Calls, Plan.not_mentions_date]
  | delegate typeName nullable =>
      rw [statements_delegate]
      simp only [Calls, Plan.mentions_delegate]
      split
      · rename_i inner halias
        rw [callsAll_dateStatements hvalue]
        simp only [List.not_mem_nil, false_iff]
        rintro ⟨_, own, rfl, hneeds, _⟩
        simp [hneeds.notAlias] at halias
      · rename_i hnone
        split
        · rename_i hdate
          rw [Stmt.callsAll_singleton, calls_callStatement hvalue, List.mem_singleton]
          constructor
          · rintro rfl
            obtain ⟨own, hneeds⟩ := needsFunction_of_holdsDate hdate hnone
            exact ⟨_, own, rfl, hneeds, rfl⟩
          · rintro ⟨_, own, rfl, _, rfl⟩
            rfl
        · rename_i hnot
          simp only [Stmt.callsAll, List.not_mem_nil, false_iff]
          rintro ⟨_, own, rfl, hneeds, _⟩
          exact hnot hneeds.holdsDate_delegate
  | array item nullable =>
      let index := loopVariable "i" scope.loops
      have hindex : (Expr.index value (.ident index)).calls = [] := by simp [Expr.calls, hvalue]
      rw [statements_array, calls_array, ← mem_callsAll_statements hindex,
        callsAll_unless List.isEmpty_iff.1]
      rw [callsAll_guarded hvalue, Stmt.callsAll_singleton, Stmt.calls, hvalue, List.nil_append]
  | map values nullable =>
      let key := loopVariable "key" scope.loops
      have hkey : (Expr.index value (.ident key)).calls = [] := by simp [Expr.calls, hvalue]
      have hkeys : (Expr.call (.member (.ident "Object") "keys") [value]).calls = [] := by
        simp [Expr.calls, Expr.callsAll, Expr.ident?, hvalue]
      rw [statements_map, calls_map, ← mem_callsAll_statements hkey,
        callsAll_unless List.isEmpty_iff.1]
      rw [callsAll_guarded hvalue, Stmt.callsAll_singleton, Stmt.calls, hkeys, List.nil_append]
  | object properties nullable =>
      rw [statements_object, calls_object, ← mem_callsAll_propertyStatements hvalue]
      split
      · rfl
      · rw [callsAll_guarded hvalue]

theorem mem_callsAll_propertyStatements {scope : Scope} {properties : List (String × Plan)}
    {object : Expr} (hobject : object.calls = []) :
    name ∈ Stmt.callsAll (r.propertyStatements policy scope properties object) ↔
      ∃ property ∈ properties, r.Calls property.2 name := by
  cases properties with
  | nil =>
      rw [propertyStatements_nil]
      simp [Stmt.callsAll]
  | cons property rest =>
      obtain ⟨key, plan⟩ := property
      have hproperty : (object.property key).calls = [] := by
        rw [Expr.calls_property, hobject]
      rw [propertyStatements_cons, Stmt.callsAll_append, List.mem_append,
        mem_callsAll_statements hproperty, mem_callsAll_propertyStatements hobject]
      simp

end

end Registry

/-! ## Loops -/

/-- The variable of the loop that a step enters, under so many loops. A step to a property enters
none. -/
def Access.loop? (level : Nat) : Access → Option String
  | .item => some (loopVariable "i" level)
  | .entry => some (loopVariable "key" level)
  | .property _ => none

/-- The number of loops that a path enters. -/
def loopsAlong (path : List Access) : Nat :=
  path.countP fun step => (step.loop? 0).isSome

namespace Registry

/-- Somewhere in a plan there is an array or a map from whose items or entries dates are reached, and
the loop over it has this variable. -/
def Loops (r : Registry) (plan : Plan) (level : Nat) (name : String) : Prop :=
  ∃ path step inner, plan.Part (path ++ [step]) inner ∧ r.HoldsDate inner ∧
    step.loop? (level + loopsAlong path) = some name

section Loops

variable {r : Registry} {policy : GuardPolicy} {name : String} {level : Nat} {nullable : Bool}

theorem not_loops_primitive : ¬ r.Loops .primitive level name := by
  rintro ⟨path, step, inner, hpart, _⟩
  rcases path with _ | _ <;> cases hpart

theorem not_loops_date : ¬ r.Loops (.date nullable) level name := by
  rintro ⟨path, step, inner, hpart, _⟩
  rcases path with _ | _ <;> cases hpart

theorem not_loops_delegate {typeName : String} :
    ¬ r.Loops (.delegate typeName nullable) level name := by
  rintro ⟨path, step, inner, hpart, _⟩
  rcases path with _ | _ <;> cases hpart

/-- A loop stands at the first step into a plan or further inside. -/
theorem loops_iff {plan : Plan} : r.Loops plan level name ↔ ∃ step inner, plan.Part [step] inner ∧
    ((r.HoldsDate inner ∧ step.loop? level = some name) ∨
      r.Loops inner (level + loopsAlong [step]) name) := by
  have halong (step : Access) (path : List Access) :
      level + loopsAlong (step :: path) = level + loopsAlong [step] + loopsAlong path := by
    simp only [loopsAlong, List.countP_cons, List.countP_nil]
    omega
  constructor
  · rintro ⟨_ | ⟨first, path⟩, step, inner, hpart, hdate, hname⟩
    · exact ⟨step, inner, hpart, .inl ⟨hdate, hname⟩⟩
    · obtain ⟨middle, hfirst, hrest⟩ := Plan.part_cons.1 hpart
      rw [halong] at hname
      exact ⟨first, middle, hfirst, .inr ⟨path, step, inner, hrest, hdate, hname⟩⟩
  · rintro ⟨first, middle, hfirst, ⟨hdate, hname⟩ | ⟨path, step, inner, hpart, hdate, hname⟩⟩
    · exact ⟨[], first, middle, hfirst, hdate, hname⟩
    · rw [← halong] at hname
      exact ⟨first :: path, step, inner, Plan.part_cons.2 ⟨middle, hfirst, hpart⟩, hdate, hname⟩

theorem loops_array {item : Plan} : r.Loops (.array item nullable) level name ↔
    (r.HoldsDate item ∧ loopVariable "i" level = name) ∨ r.Loops item (level + 1) name := by
  rw [loops_iff]
  constructor
  · rintro ⟨step, inner, hpart, h⟩
    cases hpart with
    | item hpart =>
        cases hpart
        simpa [Access.loop?, loopsAlong] using h
  · intro h
    exact ⟨.item, item, .item .here, by simpa [Access.loop?, loopsAlong] using h⟩

theorem loops_map {values : Plan} : r.Loops (.map values nullable) level name ↔
    (r.HoldsDate values ∧ loopVariable "key" level = name) ∨ r.Loops values (level + 1) name := by
  rw [loops_iff]
  constructor
  · rintro ⟨step, inner, hpart, h⟩
    cases hpart with
    | entry hpart =>
        cases hpart
        simpa [Access.loop?, loopsAlong] using h
  · intro h
    exact ⟨.entry, values, .entry .here, by simpa [Access.loop?, loopsAlong] using h⟩

theorem loops_object {properties : List (String × Plan)} :
    r.Loops (.object properties nullable) level name ↔
      ∃ property ∈ properties, r.Loops property.2 level name := by
  rw [loops_iff]
  constructor
  · rintro ⟨step, inner, hpart, h⟩
    cases hpart with
    | property hmem hpart =>
        cases hpart
        exact ⟨_, hmem, by simpa [Access.loop?, loopsAlong] using h⟩
  · rintro ⟨property, hmem, h⟩
    exact ⟨.property property.1, property.2, .property hmem .here,
      .inr (by simpa [Access.loop?, loopsAlong] using h)⟩

/-- A loop around a body, unless the body is empty. -/
theorem mem_loopsAll_unless {index : String} {body wrapped : List Stmt}
    (hwrapped : Stmt.loopsAll wrapped = index :: Stmt.loopsAll body) :
    name ∈ Stmt.loopsAll (if body.isEmpty then [] else wrapped) ↔
      (body ≠ [] ∧ index = name) ∨ name ∈ Stmt.loopsAll body := by
  split
  · rename_i hempty
    rw [List.isEmpty_iff.1 hempty]
    simp [Stmt.loopsAll]
  · rename_i hne
    have hbody : body ≠ [] := by simpa using hne
    rw [hwrapped, List.mem_cons, eq_comm]
    simp [hbody]

mutual

/-- The statements for a plan loop over the arrays and maps in it that hold dates. -/
theorem mem_loopsAll_statements {scope : Scope} {plan : Plan} {value : Expr} :
    name ∈ Stmt.loopsAll (r.statements policy scope plan value) ↔
      r.Loops plan scope.loops name := by
  cases plan with
  | primitive =>
      rw [statements_primitive]
      simp [Stmt.loopsAll, not_loops_primitive]
  | date nullable =>
      rw [statements_date, loopsAll_dateStatements]
      simp [not_loops_date]
  | delegate typeName nullable =>
      rw [statements_delegate]
      simp only [not_loops_delegate, iff_false]
      split
      · simp [loopsAll_dateStatements]
      · split <;> simp [Stmt.loopsAll, loops_callStatement]
  | array item nullable =>
      rw [statements_array, mem_loopsAll_unless (by rw [loopsAll_guarded, Stmt.loopsAll_singleton, Stmt.loops]),
        mem_loopsAll_statements, Ne, statements_eq_nil_iff, not_not]
      exact loops_array.symm
  | map values nullable =>
      rw [statements_map, mem_loopsAll_unless (by rw [loopsAll_guarded, Stmt.loopsAll_singleton, Stmt.loops]),
        mem_loopsAll_statements, Ne, statements_eq_nil_iff, not_not]
      exact loops_map.symm
  | object properties nullable =>
      have hbody : name ∈ Stmt.loopsAll
            (r.propertyStatements policy scope.enterProperty properties value) ↔
          ∃ property ∈ properties, r.Loops property.2 scope.loops name :=
        mem_loopsAll_propertyStatements
      rw [statements_object, loops_object, ← hbody]
      split
      · rfl
      · rw [loopsAll_guarded]

theorem mem_loopsAll_propertyStatements {scope : Scope} {properties : List (String × Plan)}
    {object : Expr} :
    name ∈ Stmt.loopsAll (r.propertyStatements policy scope properties object) ↔
      ∃ property ∈ properties, r.Loops property.2 scope.loops name := by
  cases properties with
  | nil =>
      rw [propertyStatements_nil]
      simp [Stmt.loopsAll]
  | cons property rest =>
      obtain ⟨key, plan⟩ := property
      rw [propertyStatements_cons, Stmt.loopsAll_append, List.mem_append,
        mem_loopsAll_statements, mem_loopsAll_propertyStatements]
      simp

end

end Loops

/-! ## Returns -/

section Returns

variable {r : Registry} {policy : GuardPolicy}

theorem not_ret_mem_guarded {nullable : Bool} {value result : Expr} {body : List Stmt}
    (h : .ret result ∉ body) : .ret result ∉ policy.guarded nullable value body := by
  unfold GuardPolicy.guarded
  split
  · simp
  · exact h

mutual

/-- The statements for a plan end where they end: none of them returns. -/
theorem not_ret_mem_statements {scope : Scope} {plan : Plan} {value result : Expr} :
    .ret result ∉ r.statements policy scope plan value := by
  have hdate {nullable : Bool} : .ret result ∉ dateStatements policy nullable value :=
    not_ret_mem_guarded (by simp [convertDate])
  cases plan with
  | primitive =>
      rw [statements_primitive]
      exact List.not_mem_nil
  | date nullable =>
      rw [statements_date]
      exact hdate
  | delegate typeName nullable =>
      rw [statements_delegate]
      split
      · exact hdate
      · split <;> simp [callStatement]
  | array item nullable =>
      rw [statements_array]
      split
      · exact List.not_mem_nil
      · exact not_ret_mem_guarded (by simp)
  | map values nullable =>
      rw [statements_map]
      split
      · exact List.not_mem_nil
      · exact not_ret_mem_guarded (by simp)
  | object properties nullable =>
      rw [statements_object]
      split
      · exact not_ret_mem_propertyStatements
      · exact not_ret_mem_guarded not_ret_mem_propertyStatements

theorem not_ret_mem_propertyStatements {scope : Scope} {properties : List (String × Plan)}
    {object result : Expr} :
    .ret result ∉ r.propertyStatements policy scope properties object := by
  cases properties with
  | nil =>
      rw [propertyStatements_nil]
      exact List.not_mem_nil
  | cons property rest =>
      obtain ⟨name, plan⟩ := property
      rw [propertyStatements_cons, List.mem_append, not_or]
      exact ⟨not_ret_mem_statements, not_ret_mem_propertyStatements⟩

end

end Returns

/-! ## Functions -/

/-- A function has the statements for a plan on its only parameter, and at most returns the
parameter after them. -/
structure Renders (r : Registry) (policy : GuardPolicy) (plan : Plan) (param : Param)
    (f : Function) : Prop where
  params : f.params = [param]
  body : ∃ tail, f.body = r.statements policy .root plan (.ident param.name) ++ tail ∧
    (tail = [] ∨ tail = [.ret (.ident param.name)])

section Renders

variable {r : Registry} {policy : GuardPolicy} {plan : Plan} {param : Param} {f : Function}
  {name : String}

theorem renders_functionOfType {typeName : String} :
    r.Renders policy plan ⟨parameterName typeName, some (.named typeName)⟩
      (r.functionOfType policy typeName plan) :=
  ⟨rfl, [], (List.append_nil _).symm, .inl rfl⟩

theorem renders_functionOfOperation {operation : OperationPlan} :
    r.Renders policy operation.plan ⟨"response", some operation.responseType⟩
      (r.functionOfOperation policy operation) :=
  ⟨rfl, _, rfl, .inr rfl⟩

theorem Renders.mem_callsAll (h : r.Renders policy plan param f) :
    name ∈ Stmt.callsAll f.body ↔ r.Calls plan name := by
  obtain ⟨tail, hbody, htail⟩ := h.body
  have hnone : Stmt.callsAll tail = [] := by rcases htail with rfl | rfl <;> rfl
  rw [hbody, Stmt.callsAll_append, hnone, List.append_nil]
  exact mem_callsAll_statements rfl

theorem Renders.mem_loopsAll (h : r.Renders policy plan param f) :
    name ∈ Stmt.loopsAll f.body ↔ r.Loops plan 0 name := by
  obtain ⟨tail, hbody, htail⟩ := h.body
  have hnone : Stmt.loopsAll tail = [] := by rcases htail with rfl | rfl <;> rfl
  rw [hbody, Stmt.loopsAll_append, hnone, List.append_nil]
  exact mem_loopsAll_statements

/-- A function for a plan that holds dates does more than return. -/
theorem Renders.exists_not_ret (h : r.Renders policy plan param f) (hdate : r.HoldsDate plan) :
    ∃ statement ∈ f.body, ∀ result, statement ≠ .ret result := by
  obtain ⟨tail, hbody, _⟩ := h.body
  have hne : r.statements policy .root plan (.ident param.name) ≠ [] := by
    rwa [Ne, statements_eq_nil_iff, not_not]
  obtain ⟨statement, hmem⟩ := List.exists_mem_of_ne_nil _ hne
  refine ⟨statement, by rw [hbody]; exact List.mem_append_left _ hmem, ?_⟩
  rintro result rfl
  exact not_ret_mem_statements hmem

end Renders

end Registry

end DateReviver
