import DateReviver.Proofs.Emission.Fitting
import DateReviver.Proofs.Emission.Places
import DateReviver.Proofs.Emission.Specification

/-!
# Guards

What the statements for a value do where it is there, where null or nothing stands in its place, and
where already the way to it ends in nothing.
-/

namespace DateReviver

open DateReviver.TypeScript

variable {m : Module} {env : Env} {level : Nat} {frame : Frame} {root value : Value} {e : Expr}
  {policy : GuardPolicy} {nullable : Bool} {body : List Stmt} {result : Except Fault Frame}

/-! ## Tests -/

section Tests

variable (hsees : Sees m level env)

include hsees

theorem holds_isDefined (hread : e.read env root = .ok value) (hvalue : value ≠ .undefined) :
    (isDefined e).holds m env root = .ok true := by
  rw [isDefined, Expr.holds_undefined_eq, if_pos hsees.global_undefined, hread]
  cases value with
  | undefined => exact absurd rfl hvalue
  | _ => rfl

theorem holds_isDefined_undefined (hread : e.read env root = .ok .undefined) :
    (isDefined e).holds m env root = .ok false := by
  rw [isDefined, Expr.holds_undefined_eq, if_pos hsees.global_undefined, hread]
  rfl

theorem holds_isDefined_error {fault : Fault} (hread : e.read env root = .error fault) :
    (isDefined e).holds m env root = .error fault := by
  rw [isDefined, Expr.holds_undefined_eq, if_pos hsees.global_undefined, hread]
  rfl

end Tests

theorem holds_isNotNull (hread : e.read env root = .ok value) (hvalue : value ≠ .null) :
    (isNotNull e).holds m env root = .ok true := by
  rw [isNotNull, Expr.holds_null_eq, hread]
  cases value with
  | null => exact absurd rfl hvalue
  | _ => rfl

theorem holds_isNotNull_null (hread : e.read env root = .ok .null) :
    (isNotNull e).holds m env root = .ok false := by
  rw [isNotNull, Expr.holds_null_eq, hread]
  rfl

theorem holds_isNotNull_error {fault : Fault} (hread : e.read env root = .error fault) :
    (isNotNull e).holds m env root = .error fault := by
  rw [isNotNull, Expr.holds_null_eq, hread]
  rfl

theorem holds_both {left right : Expr} {second : Except Fault Bool}
    (hleft : left.holds m env root = .ok true) (hright : right.holds m env root = second) :
    (Expr.both left right).holds m env root = second := by
  rw [Expr.holds_both_eq, hleft]
  exact hright

theorem holds_both_of_left {left right : Expr} {first : Except Fault Bool}
    (hleft : left.holds m env root = first) (hfirst : first ≠ .ok true) :
    (Expr.both left right).holds m env root = first := by
  rw [Expr.holds_both_eq, hleft]
  rcases first with fault | _ | _
  · rfl
  · rfl
  · exact absurd rfl hfirst

/-! ## Guarded statements -/

section Guarded

variable (hsees : Sees m level env)

include hsees

/-- A value that is there passes every guard. -/
theorem ends_guarded (hread : e.read env frame.current = .ok value)
    (hundefined : value ≠ .undefined) (hnull : value ≠ .null)
    (h : Ends m env frame body result) :
    Ends m env frame (policy.guarded nullable e body) result := by
  have hdefined := holds_isDefined hsees hread hundefined
  have hnotNull : (isNotNull e).holds m env frame.current = .ok true :=
    holds_isNotNull hread hnull
  rcases policy with ⟨_ | _⟩ <;> rcases nullable with _ | _
  · exact .single (settles_guarded body hdefined h.settles)
  · exact .single (settles_guarded body (holds_both hdefined hnotNull) h.settles)
  · exact h
  · exact .single (settles_guarded body hnotNull h.settles)

/-- Null is passed over where it is allowed. -/
theorem ends_guarded_null (hread : e.read env frame.current = .ok .null) :
    Ends m env frame (policy.guarded true e body) (.ok frame) := by
  have hdefined := holds_isDefined hsees hread (by simp)
  have hnull : (isNotNull e).holds m env frame.current = .ok false := holds_isNotNull_null hread
  rcases policy with ⟨_ | _⟩
  · exact .single (settles_guarded_skip body (holds_both hdefined hnull))
  · exact .single (settles_guarded_skip body hnull)

/-- A missing value is passed over where values may be missing. -/
theorem ends_guarded_undefined (hpolicy : policy.allPresent = false)
    (hread : e.read env frame.current = .ok .undefined) :
    Ends m env frame (policy.guarded nullable e body) (.ok frame) := by
  have hundefined := holds_isDefined_undefined hsees hread
  obtain ⟨allPresent⟩ := policy
  cases hpolicy
  rcases nullable with _ | _
  · exact .single (settles_guarded_skip body hundefined)
  · exact .single (settles_guarded_skip body (holds_both_of_left hundefined (by simp)))

/-- A guard reads what it guards. -/
theorem ends_guarded_error {fault : Fault} (hread : e.read env frame.current = .error fault)
    (h : Ends m env frame body (.error fault)) :
    Ends m env frame (policy.guarded nullable e body) (.error fault) := by
  have hdefined := holds_isDefined_error hsees hread
  have hnotNull : (isNotNull e).holds m env frame.current = .error fault :=
    holds_isNotNull_error hread
  rcases policy with ⟨_ | _⟩ <;> rcases nullable with _ | _
  · exact .single (settles_guarded_error body hdefined)
  · exact .single (settles_guarded_error body (holds_both_of_left hdefined (by simp)))
  · exact h
  · exact .single (settles_guarded_error body hnotNull)

/-! ## Calls -/

section Calls

variable {typeName : String}

/-- Whether the value of a type is there is tested under every policy. -/
theorem ends_call (hread : e.read env frame.current = .ok value) (hundefined : value ≠ .undefined)
    (hnull : nullable = true → value ≠ .null)
    (h : Settles (execExpr m · env frame (.call (.ident (functionName typeName)) [e])) result) :
    Ends m env frame [callStatement typeName nullable e] result := by
  have hdefined := holds_isDefined hsees hread hundefined
  have hbody : Settles (exec m · env frame [.expr (.call (.ident (functionName typeName)) [e])])
      (result.map fun frame => (frame, none)) := (Ends.single (settles_expr h)).settles
  unfold callStatement
  rcases nullable with _ | _
  · exact .single (settles_guarded _ hdefined hbody)
  · have hboth := holds_both hdefined (holds_isNotNull hread (hnull rfl))
    exact .single (settles_guarded _ hboth hbody)

theorem ends_call_null (hread : e.read env frame.current = .ok .null) :
    Ends m env frame [callStatement typeName true e] (.ok frame) := by
  have hdefined := holds_isDefined hsees hread (by simp)
  exact .single (settles_guarded_skip _ (holds_both hdefined (holds_isNotNull_null hread)))

theorem ends_call_undefined (hread : e.read env frame.current = .ok .undefined) :
    Ends m env frame [callStatement typeName nullable e] (.ok frame) := by
  have hundefined := holds_isDefined_undefined hsees hread
  unfold callStatement
  rcases nullable with _ | _
  · exact .single (settles_guarded_skip _ hundefined)
  · exact .single (settles_guarded_skip _ (holds_both_of_left hundefined (by simp)))

theorem ends_call_error {fault : Fault} (hread : e.read env frame.current = .error fault) :
    Ends m env frame [callStatement typeName nullable e] (.error fault) := by
  have hdefined := holds_isDefined_error hsees hread
  unfold callStatement
  rcases nullable with _ | _
  · exact .single (settles_guarded_error _ hdefined)
  · exact .single (settles_guarded_error _ (holds_both_of_left hdefined (by simp)))

end Calls

/-! ## Dates -/

/-- A text at a place inside of the parameter is replaced by its date. -/
theorem ends_dateStatements {context : Value → Value} {dates : List Access → Prop}
    (hplace : Denotes env level e context) (hinside : ∀ name, e ≠ .ident name)
    (hdates : ∀ path, dates path ↔ path = [])
    (hvalue : (∃ source, value = .text source) ∨ (value = .null ∧ nullable = true)) :
    Ends m env ⟨context value, none⟩ (dateStatements policy nullable e)
      (.ok ⟨context (value.revive dates), none⟩) := by
  rcases hvalue with ⟨source, rfl⟩ | ⟨rfl, rfl⟩
  · rw [Value.revive_text hdates]
    refine ends_guarded hsees (hplace.read _) (by simp) (by simp) (.single ?_)
    exact settles_expr (settles_assign hsees.global_date hinside (hplace.read _) (hplace.write _ _))
  · rw [Value.revive_null]
    exact ends_guarded_null hsees (hplace.read .null)

/-- A text that the parameter itself stands for is replaced for the function alone. -/
theorem ends_dateStatements_param {dates : List Access → Prop}
    (hparam : env.isParam env.param = true) (hdates : ∀ path, dates path ↔ path = [])
    (hvalue : (∃ source, value = .text source) ∨ (value = .null ∧ nullable = true)) :
    ∃ after, Ends m env ⟨value, none⟩ (dateStatements policy nullable (.ident env.param))
      (.ok after) ∧ after.current = value.revive dates := by
  have hread (value : Value) : (Expr.ident env.param).read env value = .ok value := if_pos hparam
  rcases hvalue with ⟨source, rfl⟩ | ⟨rfl, rfl⟩
  · rw [Value.revive_text hdates]
    refine ⟨⟨.text source, some (.date (.text source))⟩, ?_, rfl⟩
    refine ends_guarded hsees (hread (.text source)) (by simp) (by simp) (.single ?_)
    exact settles_expr (settles_rebind hsees.global_date hparam)
  · rw [Value.revive_null]
    exact ⟨⟨.null, none⟩, ends_guarded_null hsees (hread .null), rfl⟩

end Guarded

/-! ## Missing values -/

/-- Where values may be missing, a missing one inside of another is passed over. -/
theorem ends_statements_undefined {r : Registry} {scope : Scope} {plan : Plan}
    (hsees : Sees m level env) (hpolicy : policy.allPresent = false) (hnested : scope.nested = true)
    (hread : e.read env frame.current = .ok .undefined) :
    Ends m env frame (r.statements policy scope plan e) (.ok frame) := by
  cases plan with
  | primitive =>
      rw [Registry.statements_primitive]
      exact .nil
  | date nullable =>
      rw [Registry.statements_date]
      exact ends_guarded_undefined hsees hpolicy hread
  | delegate typeName nullable =>
      rw [Registry.statements_delegate]
      split
      · exact ends_guarded_undefined hsees hpolicy hread
      · split
        · exact ends_call_undefined hsees hread
        · exact .nil
  | array item nullable =>
      rw [Registry.statements_array]
      split
      · exact .nil
      · exact ends_guarded_undefined hsees hpolicy hread
  | map values nullable =>
      rw [Registry.statements_map]
      split
      · exact .nil
      · exact ends_guarded_undefined hsees hpolicy hread
  | object properties nullable =>
      rw [Registry.statements_object]
      split
      · rename_i hbare
        rw [hnested, Bool.not_true, Bool.or_false, List.isEmpty_iff] at hbare
        rw [hbare]
        exact .nil
      · exact ends_guarded_undefined hsees hpolicy hread

section Missing

variable {context : Value → Value} {fields : List (String × Value)}

/-- The statements for a property that may be missing do nothing where it is: there are none, or
what is read at its name is `undefined`, and the guard fails. -/
theorem ends_statements_missing {r : Registry} {scope : Scope} {property : String × Plan}
    (hsees : Sees m scope.loops env) (hplace : Denotes env scope.loops e context)
    (hmissing : r.MayLack policy.allPresent property) (hnone : fields.lookup property.1 = none) :
    Ends m env ⟨context (.object fields), none⟩
      (r.statements policy scope.enterProperty property.2 (e.property property.1))
      (.ok ⟨context (.object fields), none⟩) := by
  by_cases hdate : r.HoldsDate property.2
  · have hname : property.1 ∉ inheritedNames := fun hmem => hmissing.2 hmem hdate
    refine ends_statements_undefined hsees hmissing.1 rfl ?_
    show (e.property property.1).read env (context (.object fields)) = .ok .undefined
    rw [read_property, hplace.read, ← Value.inheritedAt_eq_undefined hname]
    exact Value.get_object_missing hnone
  · rw [Registry.statements_eq_nil_iff.2 hdate]
    exact .nil

/-- A date that is missing under the name of a function that every object inherits is put there: the
guard lets the function pass, and the object gets a field of its own with the date made of it. -/
theorem ends_dateStatements_inherited {name : String} (hsees : Sees m level env)
    (hplace : Denotes env level e context) (hnone : fields.lookup name = none)
    (hname : name ∈ inheritedFunctions) :
    Ends m env ⟨context (.object fields), none⟩
      (dateStatements policy nullable (e.property name))
      (.ok ⟨context (.object (OrderedMap.put name (.date (.inherited name)) fields)), none⟩) := by
  have hread : (e.property name).read env (context (.object fields)) = .ok (.inherited name) := by
    rw [read_property, hplace.read, ← Value.inheritedAt_function hname]
    exact Value.get_object_missing hnone
  have hwrite (value : Value) : (e.property name).write env (context (.object fields)) value
      = .ok (context (.object (OrderedMap.put name value fields))) := by
    rw [write_property, hplace.read]
    dsimp only [bind, Except.bind]
    rw [Value.put_object_function hname]
    exact hplace.write _ _
  refine ends_guarded hsees hread (by simp) (by simp) (.single (settles_expr ?_))
  exact settles_assign hsees.global_date (property_ne_ident e name) hread (hwrite _)

end Missing

/-! ## Nothing on the way -/

section Nothing

variable {r : Registry}

theorem ReadsNothing.under {name : String} (h : ReadsNothing env level root e)
    (hname : LoopName level name) (own : Option Key) :
    e.read (env.under [(name, own)]) root = .error .nothingRead :=
  h [(name, own)] (Deeper.nil.enter hname own)

mutual

/-- Statements for a place on whose way nothing is found stop there. -/
theorem ends_statements_error {scope : Scope} {plan : Plan} {e : Expr} (hsees : Sees m level env)
    (hscope : scope.loops = level) (h : ReadsNothing env level frame.current e)
    (hne : r.statements policy scope plan e ≠ []) :
    Ends m env frame (r.statements policy scope plan e) (.error .nothingRead) := by
  have hconvert : Ends m env frame [convertDate e] (.error .nothingRead) := by
    refine .single (settles_expr (.const fun fuel => ?_))
    rw [execExpr_assign, if_pos hsees.global_date, h.read]
    rfl
  cases plan with
  | primitive =>
      rw [Registry.statements_primitive] at hne
      exact absurd rfl hne
  | date nullable =>
      rw [Registry.statements_date]
      exact ends_guarded_error hsees h.read hconvert
  | delegate typeName nullable =>
      rw [Registry.statements_delegate] at hne ⊢
      split
      · exact ends_guarded_error hsees h.read hconvert
      · split
        · exact ends_call_error hsees h.read
        · simp_all
  | array item nullable =>
      rw [Registry.statements_array] at hne ⊢
      split
      · simp_all
      · refine ends_guarded_error hsees h.read (.single ?_)
        refine settles_forIndex (settles_from_fault ?_)
        rw [Expr.length, hscope, h.under (.inl rfl)]
        rfl
  | map values nullable =>
      rw [Registry.statements_map] at hne ⊢
      split
      · simp_all
      · refine ends_guarded_error hsees h.read (.single (settles_forOf_fault ?_))
        have hinside := hsees.enter (.inr rfl : LoopName level (loopVariable "key" level)) none
        rw [hscope, Expr.keys, if_pos hinside.global_object, h.under (.inr rfl)]
        rfl
  | object properties nullable =>
      rw [Registry.statements_object] at hne ⊢
      split
      · rename_i hbare
        rw [if_pos hbare] at hne
        exact ends_propertyStatements_error hsees hscope (fun name => h.property name) hne
      · rename_i hbare
        rw [Bool.or_eq_true, not_or, List.isEmpty_iff] at hbare
        refine ends_guarded_error hsees h.read ?_
        exact ends_propertyStatements_error hsees hscope (fun name => h.property name) hbare.1

theorem ends_propertyStatements_error {scope : Scope} {properties : List (String × Plan)}
    {object : Expr} (hsees : Sees m level env) (hscope : scope.loops = level)
    (h : ∀ name, ReadsNothing env level frame.current (object.property name))
    (hne : r.propertyStatements policy scope properties object ≠ []) :
    Ends m env frame (r.propertyStatements policy scope properties object)
      (.error .nothingRead) := by
  cases properties with
  | nil =>
      rw [Registry.propertyStatements_nil] at hne
      exact absurd rfl hne
  | cons property rest =>
      obtain ⟨name, plan⟩ := property
      rw [Registry.propertyStatements_cons] at hne ⊢
      by_cases hown : r.statements policy scope plan (object.property name) = []
      · rw [hown, List.nil_append] at hne ⊢
        exact ends_propertyStatements_error hsees hscope h hne
      · exact (ends_statements_error hsees hscope (h name) hown).append_error

end

end Nothing

end DateReviver
