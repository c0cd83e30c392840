import DateReviver.Proofs.Emission.Occurrences
import DateReviver.Proofs.Emission.Presence
import DateReviver.Proofs.TypeScript.Replacement
import DateReviver.Proofs.TypeScript.Scoping

/-!
# Values and depths may be exchanged

What is written for a plan depends on the value only where the value is put, and on the number of loops
around it only by the names of loop variables. So the statements for any value at any depth are those
for a name that stands nowhere else in them, written outside of all loops, with the loop variables made
deeper and the value put for that name. In particular the body of a loop is what the plan for items or
entries would be written as in its own right.
-/

namespace DateReviver

open DateReviver.TypeScript Generation

/-! ## Deeper loops -/

/-- The number of loops around the loop that has this variable, if it is one of this sort. -/
def loopLevel? (base name : String) : Option Nat :=
  let level := Nat.ofDigitChars 10 (name.toList.drop base.length) 0
  if loopVariable base level = name then some level else none

/-- The variable of a loop under so many loops more. Other names stay as they are. -/
def deeper (n : Nat) (name : String) : String :=
  match loopLevel? "i" name, loopLevel? "key" name with
  | some level, _ => loopVariable "i" (level + n)
  | none, some level => loopVariable "key" (level + n)
  | none, none => name

theorem loopLevel?_eq_some_iff {base name : String} {level : Nat} :
    loopLevel? base name = some level ↔ name = loopVariable base level := by
  unfold loopLevel?
  constructor
  · intro h
    dsimp only at h
    split at h
    · rename_i hname
      cases h
      exact hname.symm
    · cases h
  · rintro rfl
    have hlevel : Nat.ofDigitChars 10 ((loopVariable base level).toList.drop base.length) 0
        = level := by
      rw [toList_loopVariable, ← String.length_toList, List.drop_left]
      -- Nothing follows the base outside of all loops, and no digits are read as zero.
      split
      · rename_i hzero
        rw [hzero, Nat.ofDigitChars_nil]
      · rw [Nat.toList_repr, Nat.ofDigitChars_ten_toDigits]
    dsimp only
    rw [hlevel, if_pos rfl]

section Deeper

variable {n level : Nat} {name : String}

theorem deeper_index : deeper n (loopVariable "i" level) = loopVariable "i" (level + n) := by
  unfold deeper
  rw [loopLevel?_eq_some_iff.2 rfl]

theorem deeper_key : deeper n (loopVariable "key" level) = loopVariable "key" (level + n) := by
  have hnone : loopLevel? "i" (loopVariable "key" level) = none := by
    rw [Option.eq_none_iff_forall_ne_some]
    intro other hother
    have hheads := congrArg (fun name => name.toList.head?) (loopLevel?_eq_some_iff.1 hother)
    simp [toList_loopVariable] at hheads
  unfold deeper
  rw [hnone, loopLevel?_eq_some_iff.2 rfl]

theorem deeper_of_not_loopName (h : ∀ level, ¬ LoopName level name) : deeper n name = name := by
  have hnone {base : String} (hbase : ∀ level, name ≠ loopVariable base level) :
      loopLevel? base name = none := by
    rw [Option.eq_none_iff_forall_ne_some]
    exact fun level hlevel => hbase level (loopLevel?_eq_some_iff.1 hlevel)
  unfold deeper
  rw [hnone fun level hname => h level (.inl hname), hnone fun level hname => h level (.inr hname)]

end Deeper

/-- What only begins like the variable of a loop is left. -/
example : deeper 2 "i" = "i2" ∧ deeper 2 "key9" = "key11" ∧ deeper 2 "i01" = "i01" := by
  decide +kernel

/-! ## Replacements that fit a plan -/

/-- A name that stands nowhere in the statements for a plan, unless in the value. -/
structure Plan.Spares (plan : Plan) (name : String) : Prop where
  loops : ∀ level, ¬ LoopName level name
  globals : name ∉ globalNames
  functions : ∀ typeName, plan.Mentions typeName → functionName typeName ≠ name

/-- A replacement makes loops deeper by so many, and leaves the names as they are that the statements
for a plan have otherwise. -/
structure TypeScript.Replacement.Deepens (ρ : Replacement) (n : Nat) (plan : Plan) : Prop where
  binders : ∀ base ∈ ["i", "key"], ∀ level,
    ρ.binder (loopVariable base level) = loopVariable base (level + n)
  loops : ∀ base ∈ ["i", "key"], ∀ level,
    ρ.value (loopVariable base level) = .ident (loopVariable base (level + n))
  globals : ∀ name ∈ globalNames, ρ.value name = .ident name
  functions : ∀ typeName, plan.Mentions typeName →
    ρ.value (functionName typeName) = .ident (functionName typeName)

section Fits

variable {ρ : Replacement} {n : Nat} {plan : Plan} {name : String} {nullable : Bool}

/-- The statements for a part of a plan have no other names. -/
theorem TypeScript.Replacement.Deepens.of_part (h : ρ.Deepens n plan) {part : Plan}
    (hpart : ∀ typeName, part.Mentions typeName → plan.Mentions typeName) : ρ.Deepens n part :=
  ⟨h.binders, h.loops, h.globals, fun typeName hmentions => h.functions typeName (hpart _ hmentions)⟩

theorem not_loopName_functionName (typeName : String) (level : Nat) :
    ¬ LoopName level (functionName typeName) :=
  not_loopName_of_head? (head?_functionName typeName) (by decide) (by decide) level

theorem not_loopName_global (hname : name ∈ globalNames) (level : Nat) : ¬ LoopName level name := by
  simp only [globalNames, List.mem_cons, List.not_mem_nil, or_false] at hname
  rcases hname with rfl | rfl | rfl <;>
    exact not_loopName_of_head? rfl (by decide) (by decide) level

theorem deepens_rename (n : Nat) (plan : Plan) : (Replacement.rename (deeper n)).Deepens n plan := by
  have hdeeper : ∀ base ∈ ["i", "key"], ∀ level,
      deeper n (loopVariable base level) = loopVariable base (level + n) := by
    intro base hbase level
    simp only [List.mem_cons, List.not_mem_nil, or_false] at hbase
    rcases hbase with rfl | rfl
    · exact deeper_index
    · exact deeper_key
  constructor
  · exact hdeeper
  · exact fun base hbase level => congrArg Expr.ident (hdeeper base hbase level)
  · exact fun name hname => congrArg Expr.ident (deeper_of_not_loopName (not_loopName_global hname))
  · exact fun typeName _ =>
      congrArg Expr.ident (deeper_of_not_loopName (not_loopName_functionName typeName))

theorem Plan.Spares.deepens_single (h : plan.Spares name) (value : Expr) :
    (Replacement.single name value).Deepens 0 plan := by
  have hother {other : String} (hne : other ≠ name) :
      (Replacement.single name value).value other = .ident other := by
    rw [Replacement.single]
    exact Function.update_of_ne hne value Expr.ident
  constructor
  · exact fun _ _ _ => rfl
  · intro base hbase level
    refine hother fun heq => h.loops level (heq ▸ ?_)
    simp only [List.mem_cons, List.not_mem_nil, or_false] at hbase
    rcases hbase with rfl | rfl
    · exact .inl rfl
    · exact .inr rfl
  · exact fun other hmem => hother fun heq => h.globals (heq ▸ hmem)
  · exact fun typeName hmentions => hother (h.functions typeName hmentions)

/-- There is always a name to spare. -/
theorem Plan.spares_of_head? {c : Char} (plan : Plan) (hname : name.toList.head? = some c)
    (hc : c ∉ ['i', 'k', 'u', 'D', 'O', 't']) : plan.Spares name := by
  have hapart : ParamApart [] name := .of_head? (fun _ hmem => by cases hmem) hname hc
  refine ⟨hapart.loops, ?_, fun typeName _ heq => ?_⟩
  · simp [globalNames, hapart.undefined, hapart.date, hapart.object]
  · rw [← heq, head?_functionName, Option.some_inj] at hname
    subst hname
    exact hc (by decide)

end Fits

/-! ## Emission with names replaced -/

/-- The same place under so many loops more. -/
def Scope.deepen (scope : Scope) (n : Nat) : Scope :=
  ⟨scope.loops + n, scope.nested⟩

theorem Scope.enterLoop_deepen (scope : Scope) (n : Nat) :
    (scope.deepen n).enterLoop = scope.enterLoop.deepen n := by
  rw [deepen, deepen, enterLoop, enterLoop, Nat.add_right_comm]

/-- Statements, whose loops are at a level or deeper, and the same with names replaced. -/
structure Moved (ρ : Replacement) (level : Nat) (body moved : List Stmt) : Prop where
  eq : moved = Stmt.replaceAll ρ body
  loops : ∀ name ∈ Stmt.loopsAll body, ∃ inner, level ≤ inner ∧ LoopName inner name

namespace Moved

variable {ρ : Replacement} {n level : Nat} {plan : Plan} {policy : GuardPolicy} {nullable : Bool}
  {value : Expr} {body moved : List Stmt}

theorem nil : Moved ρ level [] [] :=
  ⟨rfl, fun _ hmem => absurd hmem List.not_mem_nil⟩

theorem append {others movedOthers : List Stmt} (h : Moved ρ level body moved)
    (hothers : Moved ρ level others movedOthers) :
    Moved ρ level (body ++ others) (moved ++ movedOthers) := by
  constructor
  · rw [Stmt.replaceAll_append, h.eq, hothers.eq]
  · rw [Stmt.loopsAll_append]
    exact List.forall_mem_append.2 ⟨h.loops, hothers.loops⟩

theorem isEmpty_eq (h : Moved ρ level body moved) : moved.isEmpty = body.isEmpty := by
  rw [h.eq, Stmt.isEmpty_replaceAll]

theorem guarded (h : Moved ρ level body moved)
    (hundefined : ρ.value "undefined" = .ident "undefined") :
    Moved ρ level (policy.guarded nullable value body)
      (policy.guarded nullable (value.replace ρ) moved) := by
  constructor
  · rcases policy with ⟨_ | _⟩ <;> cases nullable <;>
      simp [GuardPolicy.guarded, GuardPolicy.test?, isDefined, isNotNull, Stmt.replaceAll,
        Stmt.replace, Expr.replace, hundefined, h.eq]
  · rw [loopsAll_guarded]
    exact h.loops

theorem dateStatements (h : ρ.Deepens n plan) :
    Moved ρ level (DateReviver.dateStatements policy nullable value)
      (DateReviver.dateStatements policy nullable (value.replace ρ)) := by
  refine guarded ⟨?_, fun _ hmem => ?_⟩ (h.globals "undefined" (by decide))
  · simp [convertDate, Stmt.replaceAll, Stmt.replace, Expr.replace, Expr.replaceAll,
      h.globals "Date" (by decide)]
  · cases hmem

theorem callStatement {typeName : String} (h : ρ.Deepens n plan) (hmentions : plan.Mentions typeName) :
    Moved ρ level [DateReviver.callStatement typeName nullable value]
      [DateReviver.callStatement typeName nullable (value.replace ρ)] := by
  constructor
  · cases nullable <;>
      simp [DateReviver.callStatement, isDefined, isNotNull, Stmt.replaceAll, Stmt.replace,
        Expr.replace, Expr.replaceAll, h.globals "undefined" (by decide),
        h.functions typeName hmentions]
  · rw [Stmt.loopsAll_singleton, loops_callStatement]
    exact fun _ hmem => absurd hmem List.not_mem_nil

/-- A loop around statements whose loops are deeper. -/
theorem loop {name : String} {loop movedLoop : Stmt} (h : Moved ρ (level + 1) body moved)
    (hname : LoopName level name) (hloop : movedLoop = loop.replace ρ)
    (hloops : loop.loops = name :: Stmt.loopsAll body) : Moved ρ level [loop] [movedLoop] := by
  constructor
  · rw [hloop]
    rfl
  · rw [Stmt.loopsAll_singleton, hloops, List.forall_mem_cons]
    refine ⟨⟨level, Nat.le_refl level, hname⟩, fun other hmem => ?_⟩
    obtain ⟨inner, hinner, hother⟩ := h.loops other hmem
    exact ⟨inner, Nat.le_of_succ_le hinner, hother⟩

end Moved

/-- What is written around a body, unless it is empty. -/
theorem alike_unless_empty {ρ : Replacement} {inner outer : Nat} {x y : Generation (List Stmt)}
    {wrap movedWrap : List Stmt → List Stmt} (h : Alike (Moved ρ inner) x y)
    (hwrap : ∀ body moved, Moved ρ inner body moved → Moved ρ outer (wrap body) (movedWrap moved)) :
    Alike (Moved ρ outer) (x >>= fun body => if body.isEmpty then pure [] else pure (wrap body))
      (y >>= fun moved => if moved.isEmpty then pure [] else pure (movedWrap moved)) := by
  refine h.bind fun body moved hmoved => ?_
  rw [hmoved.isEmpty_eq]
  split
  · exact .pure .nil
  · exact .pure (hwrap body moved hmoved)

mutual

/-- Names in the value may be replaced before or after emission. The induction is on the plan. -/
theorem emitPlan_moved {ρ : Replacement} {n : Nat} {plan : Plan} (h : ρ.Deepens n plan)
    (policy : GuardPolicy) (scope : Scope) (value : Expr) :
    Alike (Moved ρ scope.loops) (emitPlan policy scope plan value)
      (emitPlan policy (scope.deepen n) plan (value.replace ρ)) := by
  cases plan with
  | primitive =>
      rw [emitPlan, emitPlan]
      exact .pure .nil
  | date nullable =>
      rw [emitPlan, emitPlan]
      exact .pure (.dateStatements h)
  | delegate typeName nullable =>
      rw [emitPlan, emitPlan]
      refine .same get fun r => ?_
      split
      · exact .pure (.dateStatements h)
      · refine .same (isTypeEmpty typeName) fun empty => ?_
        cases empty
        · exact .pure (.callStatement h (Plan.mentions_delegate.2 rfl))
        · exact .pure .nil
  | array item nullable =>
      have hindex := h.loops "i" (by decide) scope.loops
      have hitem : ρ.Deepens n item := h.of_part fun _ => Plan.mentions_array.2
      have hbody := emitPlan_moved hitem policy scope.enterLoop
        (.index value (.ident (loopVariable "i" scope.loops)))
      rw [Expr.replace, Expr.replace, hindex, ← Scope.enterLoop_deepen] at hbody
      rw [emitPlan, emitPlan]
      refine alike_unless_empty hbody fun body moved hmoved => ?_
      refine .guarded (hmoved.loop (.inl rfl) ?_ rfl) (h.globals "undefined" (by decide))
      rw [Stmt.replace, h.binders "i" (by decide), ← hmoved.eq]
      rfl
  | map values nullable =>
      have hkey := h.loops "key" (by decide) scope.loops
      have hvalues : ρ.Deepens n values := h.of_part fun _ => Plan.mentions_map.2
      have hbody := emitPlan_moved hvalues policy scope.enterLoop
        (.index value (.ident (loopVariable "key" scope.loops)))
      rw [Expr.replace, Expr.replace, hkey, ← Scope.enterLoop_deepen] at hbody
      rw [emitPlan, emitPlan]
      refine alike_unless_empty hbody fun body moved hmoved => ?_
      refine .guarded (hmoved.loop (.inr rfl) ?_ rfl) (h.globals "undefined" (by decide))
      rw [Stmt.replace, h.binders "key" (by decide), ← hmoved.eq, Expr.replace, Expr.replace,
        Expr.replace, h.globals "Object" (by decide)]
      rfl
  | object properties nullable =>
      rw [emitPlan, emitPlan]
      have hproperties : ∀ property ∈ properties, ρ.Deepens n property.2 := fun property hmem =>
        h.of_part fun _ hmentions => Plan.mentions_object.2 ⟨property, hmem, hmentions⟩
      refine (emitProperties_moved hproperties policy scope.enterProperty value).bind
        fun body moved hmoved => ?_
      have hnested : (scope.deepen n).nested = scope.nested := rfl
      rw [hmoved.isEmpty_eq, hnested]
      split
      · exact .pure hmoved
      · exact .pure (hmoved.guarded (h.globals "undefined" (by decide)))

theorem emitProperties_moved {ρ : Replacement} {n : Nat} {properties : List (String × Plan)}
    (h : ∀ property ∈ properties, ρ.Deepens n property.2) (policy : GuardPolicy) (scope : Scope)
    (object : Expr) :
    Alike (Moved ρ scope.loops) (emitProperties policy scope properties object)
      (emitProperties policy (scope.deepen n) properties (object.replace ρ)) := by
  cases properties with
  | nil =>
      rw [emitProperties, emitProperties]
      exact .pure .nil
  | cons property rest =>
      obtain ⟨name, plan⟩ := property
      rw [List.forall_mem_cons] at h
      have hown := emitPlan_moved h.1 policy scope (object.property name)
      rw [Expr.replace_property] at hown
      rw [emitProperties, emitProperties]
      refine hown.bind fun own movedOwn hmoved => ?_
      exact (emitProperties_moved h.2 policy scope object).bind fun others movedOthers hothers =>
        .pure (hmoved.append hothers)

end

/-- If the result of one step is always that of another with a function applied, so are the steps. -/
theorem Generation.Alike.eq_map {α β : Type} {f : α → β} {x : Generation α} {y : Generation β}
    (h : Alike (fun a b => b = f a) x y) : y = f <$> x :=
  funext fun r => (h.run_eq r).trans (run_map f x r).symm

section Equations

variable {policy : GuardPolicy} {plan : Plan} {name : String} {n : Nat} {nested : Bool}
  {value : Expr}

theorem emitPlan_replace {ρ : Replacement} (h : ρ.Deepens n plan) (policy : GuardPolicy)
    (scope : Scope) (value : Expr) :
    emitPlan policy (scope.deepen n) plan (value.replace ρ) =
      Stmt.replaceAll ρ <$> emitPlan policy scope plan value :=
  ((emitPlan_moved h policy scope value).mono fun _ _ hmoved => hmoved.eq).eq_map

/-- The loops that are written under others have variables of their own. -/
theorem loopName_of_emitPlan {scope : Scope} {r after : Registry} {body : List Stmt}
    (hrun : (emitPlan policy scope plan value).run r = (.ok body, after)) :
    ∀ name ∈ Stmt.loopsAll body, ∃ level, scope.loops ≤ level ∧ LoopName level name := by
  have hok : ((emitPlan policy scope plan value).run r).1 = .ok body := by rw [hrun]
  obtain ⟨_, _, hmoved⟩ := (emitPlan_moved (deepens_rename 0 plan) policy scope value).exists_ok hok
  exact hmoved.loops

/-- Statements that are written outside of all loops for a name, as they are under so many loops for a
value. -/
def TypeScript.Stmt.transplant (n : Nat) (name : String) (value : Expr) (body : List Stmt) :
    List Stmt :=
  Stmt.replaceAll (.single name value) (Stmt.replaceAll (.rename (deeper n)) body)

theorem emitPlan_transplant (h : plan.Spares name) (policy : GuardPolicy) (n : Nat) (nested : Bool)
    (value : Expr) :
    emitPlan policy ⟨n, nested⟩ plan value =
      Stmt.transplant n name value <$> emitPlan policy ⟨0, nested⟩ plan (.ident name) := by
  have hdeeper := emitPlan_replace (deepens_rename n plan) policy ⟨0, nested⟩ (.ident name)
  have hname : (Expr.ident name).replace (.rename (deeper n)) = .ident name := by
    rw [Expr.replace]
    exact congrArg Expr.ident (deeper_of_not_loopName h.loops)
  have hscope : (Scope.mk 0 nested).deepen n = ⟨n, nested⟩ := by
    rw [Scope.deepen, Nat.zero_add]
  rw [hname, hscope] at hdeeper
  -- Only now the value is put, so its own loop variables stay as they are.
  have hput := emitPlan_replace (h.deepens_single value) policy ⟨n, nested⟩ (.ident name)
  rw [Expr.replace_single, hdeeper, ← comp_map] at hput
  exact hput

/-- The guard that is put around the statements for a plan inside of a container, but not for the value
of a function: only objects get one there. -/
def Plan.enclosed (plan : Plan) (policy : GuardPolicy) (value : Expr) (body : List Stmt) :
    List Stmt :=
  match plan with
  | .object _ nullable => if body.isEmpty then [] else policy.guarded nullable value body
  | _ => body

theorem Plan.isEmpty_enclosed {body : List Stmt} :
    (plan.enclosed policy value body).isEmpty = body.isEmpty := by
  unfold Plan.enclosed
  split
  · by_cases hbody : body = []
    · rw [hbody]
      rfl
    · rw [List.isEmpty_eq_false_iff.2 hbody, if_neg Bool.false_ne_true]
      exact List.isEmpty_eq_false_iff.2 (guarded_ne_nil hbody)
  · rfl

theorem emitPlan_enclosed (policy : GuardPolicy) (n : Nat) (plan : Plan) (value : Expr) :
    emitPlan policy ⟨n, true⟩ plan value =
      plan.enclosed policy value <$> emitPlan policy ⟨n, false⟩ plan value := by
  have hsame {plan : Plan} (henclosed : plan.enclosed policy value = id)
      (hemit : emitPlan policy ⟨n, true⟩ plan value = emitPlan policy ⟨n, false⟩ plan value) :
      emitPlan policy ⟨n, true⟩ plan value =
        plan.enclosed policy value <$> emitPlan policy ⟨n, false⟩ plan value := by
    rw [henclosed, id_map, hemit]
  cases plan with
  | primitive | date | delegate => exact hsame rfl (by rw [emitPlan, emitPlan])
  | array | map =>
      refine hsame rfl ?_
      rw [emitPlan, emitPlan]
      rfl
  | object properties nullable =>
      rw [emitPlan, emitPlan, map_bind]
      refine bind_congr fun body => ?_
      rw [Bool.not_true, Bool.or_false, Bool.not_false, Bool.or_true, if_pos rfl, map_pure]
      cases body with
      | nil => rfl
      | cons => rfl

/-- The body of a loop is written as the plan for items or entries is in its own right. -/
theorem emitPlan_item (h : plan.Spares name) (policy : GuardPolicy) (n : Nat) (element : Expr) :
    emitPlan policy ⟨n, true⟩ plan element =
      (fun direct => Stmt.transplant n name element (plan.enclosed policy (.ident name) direct)) <$>
        emit policy plan (.ident name) := by
  rw [emitPlan_transplant h, emitPlan_enclosed, ← comp_map]
  rfl

theorem emitPlan_walk {wrap : List Stmt → List Stmt} (h : plan.Spares name) (policy : GuardPolicy)
    (n : Nat) (element : Expr) :
    (do
      let body ← emitPlan policy ⟨n, true⟩ plan element
      if body.isEmpty then pure [] else pure (wrap body)) =
      (fun direct => if direct.isEmpty then []
        else wrap (Stmt.transplant n name element (plan.enclosed policy (.ident name) direct))) <$>
        emit policy plan (.ident name) := by
  rw [emitPlan_item h, bind_map_left, map_eq_pure_bind]
  refine bind_congr fun direct => ?_
  have hempty : (Stmt.transplant n name element
      (plan.enclosed policy (.ident name) direct)).isEmpty = direct.isEmpty := by
    rw [Stmt.transplant, Stmt.isEmpty_replaceAll, Stmt.isEmpty_replaceAll, Plan.isEmpty_enclosed]
  rw [hempty]
  split <;> rfl

end Equations

/-- What is written for a plan is composed of the value and the loops around it. Take a name that the
statements for the plan spare. Then for any value, under any number of loops, the statements are those
that are written for the name outside of all loops, with the loop variables made deeper by that number
and the value put for the name; and emission fails, or changes the registry, alike. If the value mentions
no variable of loops at that depth or deeper, nothing in it is captured: no loop in the statements has the
variable of one of its names, nor that for which it is put. Inside of a container the statements are those
that a function has for its value, but for the one guard around them if the plan is that of an object. So
the loop over an array or a map is what the plan for its items or entries would be written as in its own
right, with that guard, moved to the item or entry under one loop more, and there is no loop if this is
nothing. -/
theorem emission_compositional (plan : Plan) (name : String) (hspares : plan.Spares name)
    (policy : GuardPolicy) :
    (∀ n nested value, emitPlan policy ⟨n, nested⟩ plan value =
      Stmt.transplant n name value <$> emitPlan policy ⟨0, nested⟩ plan (.ident name)) ∧
    (∀ n nested value,
      (∀ level other, n ≤ level → LoopName level other → ¬ value.Mentions other) →
      ∀ r body after, (emitPlan policy ⟨n, nested⟩ plan value).run r = (.ok body, after) →
        ∀ other ∈ Stmt.loopsAll body, other ≠ name ∧ ¬ value.Mentions other) ∧
    (∀ value, emitPlan policy ⟨0, true⟩ plan value =
      plan.enclosed policy value <$> emit policy plan value) ∧
    (∀ scope nullable value,
      let index := loopVariable "i" scope.loops
      emitPlan policy scope (.array plan nullable) value =
        (fun direct => if direct.isEmpty then [] else
          let body := Stmt.transplant (scope.loops + 1) name (.index value (.ident index))
            (plan.enclosed policy (.ident name) direct)
          policy.guarded nullable value [.forIndex index value body]) <$>
          emit policy plan (.ident name)) ∧
    ∀ scope nullable value,
      let key := loopVariable "key" scope.loops
      emitPlan policy scope (.map plan nullable) value =
        (fun direct => if direct.isEmpty then [] else
          let body := Stmt.transplant (scope.loops + 1) name (.index value (.ident key))
            (plan.enclosed policy (.ident name) direct)
          let keys := .call (.member (.ident "Object") "keys") [value]
          policy.guarded nullable value [.forOf key keys body]) <$>
          emit policy plan (.ident name) := by
  refine ⟨fun n nested value => emitPlan_transplant hspares policy n nested value, ?_,
    fun value => emitPlan_enclosed policy 0 plan value, ?_, ?_⟩
  · intro n nested value hfree r body after hrun other hmem
    obtain ⟨level, hlevel, hloop⟩ := loopName_of_emitPlan hrun other hmem
    exact ⟨fun heq => hspares.loops level (heq ▸ hloop), hfree level other hlevel hloop⟩
  · intro scope nullable value index
    rw [emitPlan]
    exact emitPlan_walk hspares policy (scope.loops + 1) (.index value (.ident index))
  · intro scope nullable value key
    rw [emitPlan]
    exact emitPlan_walk hspares policy (scope.loops + 1) (.index value (.ident key))

/-- The items of an item: a list of tags in a list of lists of them. -/
theorem emission_compositional_tags :
    let plan := Plan.array (.delegate "Tag" true) false
    let entry := Expr.index (.ident "value") (.ident "i")
    plan.Spares "entry" ∧
    (∀ level other, 1 ≤ level → LoopName level other → ¬ entry.Mentions other) ∧
    emitPlan ⟨false⟩ ⟨1, true⟩ plan entry =
      Stmt.transplant 1 "entry" entry <$> emitPlan ⟨false⟩ ⟨0, true⟩ plan (.ident "entry") ∧
    ∀ r body after, (emitPlan ⟨false⟩ ⟨1, true⟩ plan entry).run r = (.ok body, after) →
      ∀ other ∈ Stmt.loopsAll body, other ≠ "entry" ∧ ¬ entry.Mentions other := by
  intro plan entry
  have hspares : plan.Spares "entry" := plan.spares_of_head? rfl (by decide)
  have hfree : ∀ level other, 1 ≤ level → LoopName level other → ¬ entry.Mentions other := by
    intro level other hlevel hloop hmentions
    simp only [entry, Expr.Mentions, Expr.printed, List.singleton_append, List.mem_cons, Prod.mk.injEq,
      true_and, List.not_mem_nil, or_false] at hmentions
    rcases hmentions with rfl | rfl
    · exact not_loopName_of_head? rfl (by decide) (by decide) level hloop
    · have hzero : level = 0 := hloop.level_eq (.inl rfl)
      omega
  obtain ⟨htransplant, hcapture, _⟩ := emission_compositional plan "entry" hspares ⟨false⟩
  exact ⟨hspares, hfree, htransplant 1 true entry, hcapture 1 true entry hfree⟩

end DateReviver
