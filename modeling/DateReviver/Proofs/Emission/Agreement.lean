import DateReviver.Proofs.Emission.Functions

/-!
# What the plans decide

Whatever is asked about a type and written for it depends on the plans that are reached from the type
and on nothing else of a registry: neither on the order of the types, nor on further types, nor on
what was decided before. So two registries that have the same plan for every type that is in both have
the same answers about these types.
-/

namespace DateReviver

open DateReviver.TypeScript

namespace Registry

/-- Two registries that know the types in their plans, with the same plan for each type that is in
both. -/
structure Agrees (r r' : Registry) : Prop where
  knows : ∀ typeName plan, r.plan? typeName = some plan → r.Knows plan
  knows' : ∀ typeName plan, r'.plan? typeName = some plan → r'.Knows plan
  plan? : ∀ typeName, typeName ∈ r.typeNames → typeName ∈ r'.typeNames →
    r'.plan? typeName = r.plan? typeName

variable {r r' : Registry} {plan : Plan} {typeName : String} {nullable : Bool}

theorem Agrees.symm (h : r.Agrees r') : r'.Agrees r :=
  ⟨h.knows', h.knows, fun typeName hmem' hmem => (h.plan? typeName hmem hmem').symm⟩

/-! ## Questions -/

/-- What is reached from a plan in one registry is reached in the other, if that knows the plan. -/
theorem Agrees.reaches (h : r.Agrees r') {p q : Plan} (hknows' : r'.Knows p)
    (hreach : r.Reaches p q) : r'.Reaches p q ∧ r'.Knows q := by
  induction hreach with
  | refl => exact ⟨.refl, hknows'⟩
  | @tail b c hbefore hstep ih =>
      have hstep' : r'.Step b c := by
        cases hstep with
        | item => exact .item
        | value => exact .value
        | property hmem => exact .property hmem
        | unfold hplan =>
            cases ih.2 with
            | delegate hmem =>
                have hsame := h.plan? _ (mem_typeNames_of_plan? hplan) hmem
                exact .unfold (hsame.trans hplan)
      exact ⟨ih.1.tail hstep', knows_of_reaches h.knows' ih.2 (.single hstep')⟩

theorem Agrees.holdsDate_iff (h : r.Agrees r') (hknows : r.Knows plan) (hknows' : r'.Knows plan) :
    r'.HoldsDate plan ↔ r.HoldsDate plan := by
  constructor
  · intro hdate
    obtain ⟨inner, hreach⟩ := hdate
    exact ⟨inner, (h.symm.reaches hknows hreach).1⟩
  · intro hdate
    obtain ⟨inner, hreach⟩ := hdate
    exact ⟨inner, (h.reaches hknows' hreach).1⟩

theorem Agrees.namesDate (h : r.Agrees r') (hmem' : typeName ∈ r'.typeNames)
    (hnames : r.NamesDate typeName nullable) : r'.NamesDate typeName nullable := by
  induction hnames with
  | date hplan =>
      have hsame := h.plan? _ (mem_typeNames_of_plan? hplan) hmem'
      exact .date (hsame.trans hplan)
  | delegate hplan _ ih =>
      have hsame := h.plan? _ (mem_typeNames_of_plan? hplan) hmem'
      have hplan' := hsame.trans hplan
      cases h.knows' _ _ hplan' with
      | delegate htarget => exact .delegate hplan' (ih htarget)

theorem Agrees.dateAlias?_eq (h : r.Agrees r') (hmem : typeName ∈ r.typeNames)
    (hmem' : typeName ∈ r'.typeNames) : r'.dateAlias? typeName = r.dateAlias? typeName := by
  ext nullable
  rw [dateAlias?_eq_some_iff, dateAlias?_eq_some_iff]
  exact ⟨h.symm.namesDate hmem, h.namesDate hmem'⟩

/-! ## Statements -/

variable {policy : GuardPolicy}

mutual

/-- The same statements carry out a plan that both registries know. -/
theorem Agrees.statements_eq (h : r.Agrees r') {scope : Scope} {plan : Plan} {value : Expr}
    (hknows : r.Knows plan) (hknows' : r'.Knows plan) :
    r'.statements policy scope plan value = r.statements policy scope plan value := by
  cases plan with
  | primitive => rw [statements_primitive, statements_primitive]
  | date nullable => rw [statements_date, statements_date]
  | delegate typeName nullable =>
      have hdate := h.holdsDate_iff hknows hknows'
      cases hknows with
      | delegate hmem =>
          cases hknows' with
          | delegate hmem' =>
              rw [statements_delegate, statements_delegate, h.dateAlias?_eq hmem hmem', hdate]
  | array item nullable =>
      cases hknows with
      | array hitem =>
          cases hknows' with
          | array hitem' =>
              rw [statements_array, statements_array, h.statements_eq hitem hitem']
  | map values nullable =>
      cases hknows with
      | map hvalues =>
          cases hknows' with
          | map hvalues' =>
              rw [statements_map, statements_map, h.statements_eq hvalues hvalues']
  | object properties nullable =>
      cases hknows with
      | object hproperties =>
          cases hknows' with
          | object hproperties' =>
              rw [statements_object, statements_object,
                h.propertyStatements_eq hproperties hproperties']

theorem Agrees.propertyStatements_eq (h : r.Agrees r') {scope : Scope}
    {properties : List (String × Plan)} {object : Expr}
    (hknows : ∀ property ∈ properties, r.Knows property.2)
    (hknows' : ∀ property ∈ properties, r'.Knows property.2) :
    r'.propertyStatements policy scope properties object =
      r.propertyStatements policy scope properties object := by
  cases properties with
  | nil => rw [propertyStatements_nil, propertyStatements_nil]
  | cons property rest =>
      obtain ⟨name, plan⟩ := property
      have hown : r'.statements policy scope plan (object.property name) =
          r.statements policy scope plan (object.property name) :=
        h.statements_eq (hknows _ List.mem_cons_self) (hknows' _ List.mem_cons_self)
      rw [propertyStatements_cons, propertyStatements_cons, hown,
        h.propertyStatements_eq (fun other hmem => hknows other (List.mem_cons_of_mem _ hmem))
          fun other hmem => hknows' other (List.mem_cons_of_mem _ hmem)]

end

/-! ## Functions -/

theorem Agrees.needsFunction (h : r.Agrees r') (hmem' : typeName ∈ r'.typeNames)
    (hneeds : r.NeedsFunction typeName plan) : r'.NeedsFunction typeName plan := by
  have hmem := mem_typeNames_of_plan? hneeds.plan?
  have hplan' := (h.plan? typeName hmem hmem').trans hneeds.plan?
  refine ⟨hplan', ?_, ?_⟩
  · exact (h.holdsDate_iff (h.knows _ _ hneeds.plan?) (h.knows' _ _ hplan')).2 hneeds.holdsDate
  · exact (h.dateAlias?_eq hmem hmem').trans hneeds.notAlias

theorem Agrees.typeFunction?_eq (h : r.Agrees r') (hmem : typeName ∈ r.typeNames)
    (hmem' : typeName ∈ r'.typeNames) :
    r'.typeFunction? policy typeName = r.typeFunction? policy typeName := by
  have hsame := h.plan? typeName hmem hmem'
  cases hplan : r.plan? typeName with
  | none => rw [typeFunction?, typeFunction?, hsame, hplan, Option.bind_none, Option.bind_none]
  | some plan =>
      have hneeds : r'.NeedsFunction typeName plan ↔ r.NeedsFunction typeName plan :=
        ⟨h.symm.needsFunction hmem, h.needsFunction hmem'⟩
      have hknows' := h.knows' typeName plan (hsame.trans hplan)
      rw [typeFunction?, typeFunction?, hsame, hplan, Option.bind_some, Option.bind_some, hneeds,
        functionOfType, functionOfType, h.statements_eq (h.knows typeName plan hplan) hknows']

theorem Agrees.operationFunction?_eq (h : r.Agrees r') {operation : OperationPlan}
    (hknows : r.Knows operation.plan) (hknows' : r'.Knows operation.plan) :
    r'.operationFunction? policy operation = r.operationFunction? policy operation := by
  rw [operationFunction?, operationFunction?, h.holdsDate_iff hknows hknows', functionOfOperation,
    functionOfOperation, h.statements_eq hknows hknows']

end Registry

end DateReviver
