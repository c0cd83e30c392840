import DateReviver.Proofs.Emission.Decision

/-!
# Writing without checks for missing values

If values are never `undefined`, the tests for that are left out, except before calls: a guard that
tests nothing else gives way to its body. Nothing else is written differently. In particular nothing is
left out that would do something, so the functions have the same names and parameters, and the calls
are for the same types.
-/

namespace DateReviver

open DateReviver.OpenApi DateReviver.TypeScript Generation

/-! ## Deleting tests -/

/-- What is left of a test without the parts that test for `undefined`. -/
def TypeScript.Expr.withoutDefined? : Expr → Option Expr
  | .differs _ (.ident "undefined") => none
  | .both left right => Option.merge Expr.both left.withoutDefined? right.withoutDefined?
  | test => some test

/-- A body that is nothing but a call. -/
def TypeScript.Stmt.callOnly : List Stmt → Bool
  | [.expr (.call _ _)] => true
  | _ => false

mutual

/-- A statement without tests for `undefined`, except in the guards of calls. What a guard stood
before takes its place if nothing is left to test. -/
def TypeScript.Stmt.withoutDefined : Stmt → List Stmt
  | .guarded test body =>
      if Stmt.callOnly body then [.guarded test body]
      else
        match test.withoutDefined? with
        | some rest => [.guarded rest (Stmt.withoutDefinedAll body)]
        | none => Stmt.withoutDefinedAll body
  | .forIndex index array body => [.forIndex index array (Stmt.withoutDefinedAll body)]
  | .forOf binding iterable body => [.forOf binding iterable (Stmt.withoutDefinedAll body)]
  | .expr value => [.expr value]
  | .ret value => [.ret value]

def TypeScript.Stmt.withoutDefinedAll : List Stmt → List Stmt
  | [] => []
  | statement :: rest => statement.withoutDefined ++ Stmt.withoutDefinedAll rest

end

/-- A function without the tests that are deleted from its body. -/
def TypeScript.Function.withoutDefined (f : Function) : Function :=
  { f with body := Stmt.withoutDefinedAll f.body }

/-- What a function is called by: its name and its parameters, and whether it is exported. -/
def TypeScript.Function.signature (f : Function) : String × List Param × Bool :=
  (f.name, f.params, f.exported)

theorem withoutDefinedAll_append (first second : List Stmt) :
    Stmt.withoutDefinedAll (first ++ second) =
      Stmt.withoutDefinedAll first ++ Stmt.withoutDefinedAll second := by
  induction first with
  | nil => rfl
  | cons statement rest ih =>
      rw [List.cons_append, Stmt.withoutDefinedAll, Stmt.withoutDefinedAll, ih, List.append_assoc]

section Guards

variable {nullable : Bool} {value : Expr} {body : List Stmt}

/-- The two policies differ in what is deleted. -/
theorem withoutDefinedAll_guarded (hcall : Stmt.callOnly body = false) :
    Stmt.withoutDefinedAll (GuardPolicy.guarded ⟨false⟩ nullable value body) =
      GuardPolicy.guarded ⟨true⟩ nullable value (Stmt.withoutDefinedAll body) := by
  cases nullable <;>
    simp [GuardPolicy.guarded, GuardPolicy.test?, Stmt.withoutDefinedAll, Stmt.withoutDefined, hcall,
      isDefined, isNotNull, Expr.withoutDefined?]

/-- As long as values may be `undefined`, every guard is there. -/
theorem exists_guard :
    ∃ test, GuardPolicy.guarded ⟨false⟩ nullable value body = [.guarded test body] := by
  cases nullable
  · exact ⟨_, rfl⟩
  · exact ⟨_, rfl⟩

theorem withoutDefined_callStatement (typeName : String) :
    (callStatement typeName nullable value).withoutDefined =
      [callStatement typeName nullable value] := by
  rw [callStatement, Stmt.withoutDefined]
  rfl

/-- A guard gives way to the call inside of it, which keeps its own. -/
example (typeName : String) :
    Stmt.withoutDefinedAll (GuardPolicy.guarded ⟨false⟩ false value
      [callStatement typeName true value]) = [callStatement typeName true value] := rfl

end Guards

/-! ## Statements with and without the tests -/

/-- A guard of which something is left. -/
structure TypeScript.Stmt.Guards (statement : Stmt) : Prop where
  guard : ∃ test body, statement = .guarded test body
  left : statement.withoutDefined ≠ []

/-- Statements, all of them guards, and what is left of them without the tests. -/
structure Relieved (checked bare : List Stmt) : Prop where
  guards : ∀ statement ∈ checked, statement.Guards
  eq : bare = Stmt.withoutDefinedAll checked

namespace Relieved

variable {nullable : Bool} {value : Expr} {checked bare : List Stmt}

theorem nil : Relieved [] [] :=
  ⟨fun _ hmem => absurd hmem List.not_mem_nil, rfl⟩

theorem append {others bareOthers : List Stmt} (h : Relieved checked bare)
    (hothers : Relieved others bareOthers) : Relieved (checked ++ others) (bare ++ bareOthers) := by
  constructor
  · exact List.forall_mem_append.2 ⟨h.guards, hothers.guards⟩
  · rw [withoutDefinedAll_append, h.eq, hothers.eq]

/-- The tests make no difference to whether there is anything to do. -/
theorem isEmpty_eq (h : Relieved checked bare) : bare.isEmpty = checked.isEmpty := by
  cases checked with
  | nil => rw [h.eq, Stmt.withoutDefinedAll]
  | cons statement rest =>
      have hleft := (h.guards statement List.mem_cons_self).left
      rw [h.eq, Stmt.withoutDefinedAll, List.isEmpty_cons, List.isEmpty_eq_false_iff, Ne,
        List.append_eq_nil_iff, not_and_or]
      exact .inl hleft

/-- Guards are no call. -/
theorem callOnly_eq (h : Relieved checked bare) : Stmt.callOnly checked = false := by
  unfold Stmt.callOnly
  split
  · obtain ⟨_, _, hguard⟩ := (h.guards _ List.mem_cons_self).guard
    cases hguard
  · rfl

/-- A body that is guarded under both policies. -/
theorem guarded {body : List Stmt} (hcall : Stmt.callOnly body = false)
    (hbody : Stmt.withoutDefinedAll body ≠ []) :
    Relieved (GuardPolicy.guarded ⟨false⟩ nullable value body)
      (GuardPolicy.guarded ⟨true⟩ nullable value (Stmt.withoutDefinedAll body)) := by
  have heq := @withoutDefinedAll_guarded nullable value body hcall
  refine ⟨fun statement hmem => ?_, heq.symm⟩
  obtain ⟨test, hguard⟩ := @exists_guard nullable value body
  rw [hguard, List.mem_singleton] at hmem
  subst hmem
  rw [hguard, Stmt.withoutDefinedAll, Stmt.withoutDefinedAll, List.append_nil] at heq
  refine ⟨⟨test, body, rfl⟩, ?_⟩
  rw [heq]
  exact guarded_ne_nil hbody

theorem dateStatements : Relieved (DateReviver.dateStatements ⟨false⟩ nullable value)
    (DateReviver.dateStatements ⟨true⟩ nullable value) :=
  guarded rfl (List.cons_ne_nil _ _)

theorem callStatement (typeName : String) :
    Relieved [DateReviver.callStatement typeName nullable value]
      [DateReviver.callStatement typeName nullable value] := by
  constructor
  · intro statement hmem
    rw [List.mem_singleton] at hmem
    subst hmem
    refine ⟨⟨_, _, rfl⟩, ?_⟩
    rw [withoutDefined_callStatement]
    exact List.cons_ne_nil _ _
  · rw [Stmt.withoutDefinedAll, withoutDefined_callStatement]
    rfl

end Relieved

/-! ## Two runs -/

namespace Generation

variable {α β γ δ : Type} {R : α → β → Prop} {S : γ → δ → Prop} {x : Generation α}
  {y : Generation β}

/-- From any registry, two steps lead to the same registry, and either both fail with one error or
their results are related. -/
def Alike (R : α → β → Prop) (x : Generation α) (y : Generation β) : Prop :=
  ∀ r, (∃ e after, x.run r = (.error e, after) ∧ y.run r = (.error e, after)) ∨
    ∃ a b after, x.run r = (.ok a, after) ∧ y.run r = (.ok b, after) ∧ R a b

theorem Alike.refl (x : Generation α) : Alike Eq x x := by
  intro r
  rcases hrun : x.run r with ⟨e | a, after⟩
  · exact .inl ⟨e, after, rfl, rfl⟩
  · exact .inr ⟨a, a, after, rfl, rfl, rfl⟩

theorem Alike.pure {a : α} {b : β} (h : R a b) :
    Alike R (pure a : Generation α) (pure b : Generation β) :=
  fun r => .inr ⟨a, b, r, rfl, rfl, h⟩

theorem Alike.bind {f : α → Generation γ} {g : β → Generation δ} (h : Alike R x y)
    (hnext : ∀ a b, R a b → Alike S (f a) (g b)) : Alike S (x >>= f) (y >>= g) := by
  intro r
  rw [run_bind, run_bind]
  rcases h r with ⟨e, after, hx, hy⟩ | ⟨a, b, after, hx, hy, hrelated⟩
  · rw [hx, hy]
    exact .inl ⟨e, after, rfl, rfl⟩
  · rw [hx, hy]
    exact hnext a b hrelated after

theorem Alike.mono {T : α → β → Prop} (h : Alike R x y) (himp : ∀ a b, R a b → T a b) :
    Alike T x y := by
  intro r
  rcases h r with hfails | ⟨a, b, after, hx, hy, hrelated⟩
  · exact .inl hfails
  · exact .inr ⟨a, b, after, hx, hy, himp a b hrelated⟩

/-- Two sequences that begin with the same step. -/
theorem Alike.same {f : α → Generation γ} {g : α → Generation δ} (x : Generation α)
    (hnext : ∀ a, Alike S (f a) (g a)) : Alike S (x >>= f) (x >>= g) :=
  (Alike.refl x).bind fun a _ hsame => hsame ▸ hnext a

/-- Besides being related, the results of two steps have what the results of each always have. -/
theorem Alike.and {P : α → Prop} {Q : β → Prop} (h : Alike R x y)
    (hx : ∀ r a, (x.run r).1 = .ok a → P a) (hy : ∀ r b, (y.run r).1 = .ok b → Q b) :
    Alike (fun a b => R a b ∧ P a ∧ Q b) x y := by
  intro r
  rcases h r with hfails | ⟨a, b, after, hxrun, hyrun, hrelated⟩
  · exact .inl hfails
  · exact .inr ⟨a, b, after, hxrun, hyrun, hrelated, hx r a (by rw [hxrun]), hy r b (by rw [hyrun])⟩

theorem Alike.error_iff (h : Alike R x y) {r : Registry} {e : GenerationError} :
    (x.run r).1 = .error e ↔ (y.run r).1 = .error e := by
  rcases h r with ⟨_, _, hx, hy⟩ | ⟨_, _, _, hx, hy, _⟩ <;> simp [hx, hy]

theorem Alike.exists_ok (h : Alike R x y) {r : Registry} {a : α} (hok : (x.run r).1 = .ok a) :
    ∃ b, (y.run r).1 = .ok b ∧ R a b := by
  rcases h r with ⟨_, _, hx, _⟩ | ⟨_, b, _, hx, hy, hrelated⟩
  · rw [hx] at hok
    cases hok
  · rw [hx] at hok
    cases hok
    exact ⟨b, by rw [hy], hrelated⟩

/-- If the result of one is a function of the result of the other, so is its whole run. -/
theorem Alike.run_eq {f : α → β} (h : Alike (fun a b => b = f a) x y) (r : Registry) :
    y.run r = ((x.run r).1.map f, (x.run r).2) := by
  rcases h r with ⟨e, after, hx, hy⟩ | ⟨a, b, after, hx, hy, rfl⟩
  · rw [hx, hy]
    rfl
  · rw [hx, hy]
    rfl

end Generation

/-! ## Emission -/

/-- A loop is written alike, if its body is. -/
theorem alike_loop {nullable : Bool} {value : Expr} {loop : List Stmt → Stmt}
    {x y : Generation (List Stmt)} (h : Alike Relieved x y)
    (hcall : ∀ body, Stmt.callOnly [loop body] = false)
    (hloop : ∀ body, (loop body).withoutDefined = [loop (Stmt.withoutDefinedAll body)]) :
    Alike Relieved
      (x >>= fun body => if body.isEmpty then pure []
        else pure (GuardPolicy.guarded ⟨false⟩ nullable value [loop body]))
      (y >>= fun body => if body.isEmpty then pure []
        else pure (GuardPolicy.guarded ⟨true⟩ nullable value [loop body])) := by
  refine h.bind fun checked bare hbody => ?_
  rw [hbody.isEmpty_eq]
  split
  · exact .pure .nil
  · have hbare : Stmt.withoutDefinedAll [loop checked] = [loop bare] := by
      rw [Stmt.withoutDefinedAll, Stmt.withoutDefinedAll, List.append_nil, hloop, hbody.eq]
    rw [← hbare]
    exact .pure (.guarded (hcall checked) (by simp [hbare]))

mutual

/-- Under both policies a plan is carried out alike. The induction is on the plan. -/
theorem emitPlan_alike (scope : Scope) (plan : Plan) (value : Expr) :
    Alike Relieved (emitPlan ⟨false⟩ scope plan value) (emitPlan ⟨true⟩ scope plan value) := by
  cases plan with
  | primitive =>
      rw [emitPlan, emitPlan]
      exact .pure .nil
  | date nullable =>
      rw [emitPlan, emitPlan]
      exact .pure .dateStatements
  | delegate typeName nullable =>
      rw [emitPlan, emitPlan]
      refine .same get fun r => ?_
      split
      · exact .pure .dateStatements
      · refine .same (isTypeEmpty typeName) fun empty => ?_
        cases empty
        · exact .pure (.callStatement typeName)
        · exact .pure .nil
  | array item nullable =>
      rw [emitPlan, emitPlan]
      exact alike_loop (emitPlan_alike scope.enterLoop item _) (fun _ => rfl) fun _ => rfl
  | map values nullable =>
      rw [emitPlan, emitPlan]
      exact alike_loop (emitPlan_alike scope.enterLoop values _) (fun _ => rfl) fun _ => rfl
  | object properties nullable =>
      rw [emitPlan, emitPlan]
      refine (emitProperties_alike scope.enterProperty properties value).bind
        fun checked bare hbody => ?_
      rw [hbody.isEmpty_eq]
      split
      · exact .pure hbody
      · rename_i hguarded
        rw [Bool.or_eq_true, not_or] at hguarded
        have hsome : bare ≠ [] := by
          rw [← List.isEmpty_eq_false_iff, hbody.isEmpty_eq]
          exact Bool.eq_false_iff.2 hguarded.1
        rw [hbody.eq] at hsome ⊢
        exact .pure (.guarded hbody.callOnly_eq hsome)

theorem emitProperties_alike (scope : Scope) (properties : List (String × Plan)) (object : Expr) :
    Alike Relieved (emitProperties ⟨false⟩ scope properties object)
      (emitProperties ⟨true⟩ scope properties object) := by
  cases properties with
  | nil =>
      rw [emitProperties, emitProperties]
      exact .pure .nil
  | cons property rest =>
      obtain ⟨name, plan⟩ := property
      rw [emitProperties, emitProperties]
      refine (emitPlan_alike scope plan _).bind fun own bareOwn hown => ?_
      exact (emitProperties_alike scope rest object).bind fun others bareOthers hothers =>
        .pure (hown.append hothers)

end

/-! ## Functions and calls -/

/-- A guard of which one statement is left. -/
theorem Relieved.single {statement : Stmt} {bare : List Stmt} (h : Relieved [statement] bare)
    (hlength : bare.length ≤ 1) : ∃ rest, bare = [rest] ∧ statement.withoutDefined = [rest] := by
  have hleft := (h.guards statement List.mem_cons_self).left
  have heq : bare = statement.withoutDefined := by
    rw [h.eq, Stmt.withoutDefinedAll, Stmt.withoutDefinedAll, List.append_nil]
  rw [← heq] at hleft ⊢
  obtain ⟨rest, hrest⟩ := List.length_eq_one_iff.1
    (Nat.le_antisymm hlength (List.length_pos_iff.2 hleft))
  exact ⟨rest, hrest, hrest⟩

/-- One of two statements is what is left of the other, or there is neither. -/
abbrev LeftOf (checked bare : Option Stmt) : Prop :=
  Option.Rel (fun statement rest => statement.withoutDefined = [rest]) checked bare

theorem callSite_alike (typeName : String) (value : Expr) :
    Alike LeftOf (callSite ⟨false⟩ typeName value) (callSite ⟨true⟩ typeName value) := by
  refine .same get fun r => ?_
  split
  · have hemit := (emitPlan_alike .root (.delegate typeName false) value).and
      (fun _ _ => length_emit_delegate) fun _ _ => length_emit_delegate
    refine hemit.bind fun checked bare ⟨hrelieved, hchecked, hbare⟩ => ?_
    rcases checked with _ | ⟨statement, _ | _⟩
    · rw [hrelieved.eq]
      exact .pure .none
    · obtain ⟨rest, rfl, hrest⟩ := hrelieved.single hbare
      exact .pure (.some hrest)
    · simp at hchecked
  · exact .pure .none

/-- A function under both policies, if it is there. -/
abbrev SameFunction (checked bare : Option Function) : Prop :=
  bare = checked.map Function.withoutDefined

theorem typeFunction_alike (typeName : String) :
    Alike SameFunction (typeFunction ⟨false⟩ typeName) (typeFunction ⟨true⟩ typeName) := by
  unfold typeFunction
  refine .same (isTypeEmpty typeName) fun empty => ?_
  split
  · exact .pure rfl
  · refine .same get fun r => ?_
    split
    · exact .pure rfl
    · rename_i plan _
      refine .same get fun now => ?_
      split
      · exact .same (note _) fun _ => .pure rfl
      · refine (emitPlan_alike .root plan _).bind fun checked bare hbody => ?_
        rw [hbody.isEmpty_eq]
        split
        · exact .pure rfl
        · rw [hbody.eq]
          exact .pure rfl

theorem operationFunction_alike (operation : OperationPlan) :
    Alike SameFunction (operationFunction ⟨false⟩ operation)
      (operationFunction ⟨true⟩ operation) := by
  unfold operationFunction
  refine (emitPlan_alike .root operation.plan _).bind fun checked bare hbody => ?_
  rw [hbody.isEmpty_eq]
  split
  · exact .pure rfl
  · refine .pure ?_
    rw [SameFunction, Option.map_some, Function.withoutDefined, withoutDefinedAll_append, hbody.eq]
    rfl

/-- Functions under both policies. -/
abbrev SameFunctions (checked bare : List Function) : Prop :=
  bare = checked.map Function.withoutDefined

/-- A function, if it is there, before others. -/
theorem SameFunction.append {own bareOwn : Option Function} {others bareOthers : List Function}
    (h : SameFunction own bareOwn) (hothers : SameFunctions others bareOthers) :
    SameFunctions (own.toList ++ others) (bareOwn.toList ++ bareOthers) := by
  rw [SameFunctions, h, hothers, List.map_append]
  cases own <;> rfl

theorem typeFunctions_alike (typeNames : List String) :
    Alike SameFunctions (typeFunctions ⟨false⟩ typeNames) (typeFunctions ⟨true⟩ typeNames) := by
  induction typeNames with
  | nil => exact .pure rfl
  | cons typeName rest ih =>
      exact (typeFunction_alike typeName).bind fun _ _ hown => ih.bind fun _ _ hothers =>
        .pure (hown.append hothers)

theorem allTypeFunctions_alike :
    Alike SameFunctions (allTypeFunctions ⟨false⟩) (allTypeFunctions ⟨true⟩) :=
  .same get fun r => typeFunctions_alike r.typeNames

theorem operationFunctions_alike (operations : List OperationPlan) :
    Alike SameFunctions (operationFunctions ⟨false⟩ operations)
      (operationFunctions ⟨true⟩ operations) := by
  induction operations with
  | nil => exact .pure rfl
  | cons operation rest ih =>
      exact (operationFunction_alike operation).bind fun _ _ hown => ih.bind fun _ _ hothers =>
        .pure (hown.append hothers)

/-- A call for the same type, of whose statement the other is left. -/
structure CallSite.Relieved (checked bare : CallSite) : Prop where
  typeName : bare.typeName = checked.typeName
  statement : checked.statement.withoutDefined = [bare.statement]

theorem callSites_alike (typeNames : List String) :
    Alike (List.Forall₂ CallSite.Relieved) (callSites ⟨false⟩ typeNames)
      (callSites ⟨true⟩ typeNames) := by
  induction typeNames with
  | nil => exact .pure .nil
  | cons typeName rest ih =>
      refine (callSite_alike typeName _).bind fun own bareOwn hown => ih.bind fun _ _ hothers => .pure ?_
      cases hown with
      | none => exact hothers
      | some hleft => exact .cons ⟨rfl, hleft⟩ hothers

/-! ## Outputs -/

/-- An output, and what is left of it without the tests. -/
structure Output.Relieved (checked bare : Output) : Prop where
  typeFunctions : SameFunctions checked.typeFunctions bare.typeFunctions
  operationFunctions : SameFunctions checked.operationFunctions bare.operationFunctions
  callSites : List.Forall₂ CallSite.Relieved checked.callSites bare.callSites

/-- The functions have the same names and parameters, and the calls are for the same types. -/
theorem Output.Relieved.signatures_eq {checked bare : Output} (h : checked.Relieved bare) :
    bare.toModule.map Function.signature = checked.toModule.map Function.signature ∧
      bare.callSites.map CallSite.typeName = checked.callSites.map CallSite.typeName := by
  constructor
  · rw [Output.toModule, Output.toModule, h.typeFunctions, h.operationFunctions, ← List.map_append,
      List.map_map]
    rfl
  · rw [← List.forall₂_eq_eq_eq, List.forall₂_map_left_iff, List.forall₂_map_right_iff]
    exact h.callSites.flip.imp fun _ _ hsite => hsite.typeName

/-- The same options, but for whether properties may be missing. -/
def Options.requiring (options : Options) (all : Bool) : Options :=
  { options with requireAllProperties := all }

theorem writing_alike (options : Options) (doc : Document) (operations : List OperationPlan) :
    Alike Output.Relieved (writing (options.requiring false) doc operations)
      (writing (options.requiring true) doc operations) := by
  refine .same get fun r => .same (note _) fun _ => ?_
  refine allTypeFunctions_alike.bind fun functions bareFunctions hfunctions => ?_
  refine (operationFunctions_alike operations).bind fun ofOperations bareOperations hoperations => ?_
  refine (callSites_alike (options.requested doc)).bind fun calls bareCalls hcalls => ?_
  subst hfunctions hoperations
  rw [List.length_map, List.length_map]
  exact .same (note _) fun _ => .pure ⟨rfl, rfl, hcalls⟩

theorem generation_alike (options : Options) (doc : Document) :
    Alike Output.Relieved (generation (options.requiring false) doc)
      (generation (options.requiring true) doc) := by
  rw [generation_eq, generation_eq]
  exact .same (planning options doc) fun operations => writing_alike options doc operations

/-- To require all properties only removes tests. From any registry and for any plan and value, both
policies lead to the same registry and fail with the same error, or else what is written under one is
what is left of what is written under the other, if the tests for `undefined` are deleted from all guards
but those of calls; so it is with the functions for all types. Therefore both settings of the option
generate from a document the same functions up to these tests, with the same names and parameters, and
calls for the same types, or else fail with the same error. -/
theorem requireAllProperties_only_removes_tests :
    (∀ (r : Registry) plan value, (emit ⟨true⟩ plan value).run r =
      (((emit ⟨false⟩ plan value).run r).1.map Stmt.withoutDefinedAll,
        ((emit ⟨false⟩ plan value).run r).2)) ∧
    (∀ r : Registry, (allTypeFunctions ⟨true⟩).run r =
      (((allTypeFunctions ⟨false⟩).run r).1.map (List.map Function.withoutDefined),
        ((allTypeFunctions ⟨false⟩).run r).2)) ∧
    ∀ (options : Options) doc,
      let checked := generate (options.requiring false) doc
      let bare := generate (options.requiring true) doc
      (∀ e, checked = .error e ↔ bare = .error e) ∧
      ∀ output, checked = .ok output → ∃ output', bare = .ok output' ∧ output.Relieved output' ∧
        output'.toModule.map Function.signature = output.toModule.map Function.signature ∧
        output'.callSites.map CallSite.typeName = output.callSites.map CallSite.typeName := by
  refine ⟨fun r plan value => ?_, allTypeFunctions_alike.run_eq, fun options doc => ?_⟩
  · have halike : Alike (fun checked bare => bare = Stmt.withoutDefinedAll checked)
        (emit ⟨false⟩ plan value) (emit ⟨true⟩ plan value) :=
      (emitPlan_alike .root plan value).mono fun _ _ h => h.eq
    exact halike.run_eq r
  · have halike := generation_alike options doc
    refine ⟨fun _ => halike.error_iff, fun output hok => ?_⟩
    obtain ⟨output', hok', hrelieved⟩ := halike.exists_ok hok
    exact ⟨output', hok', hrelieved, hrelieved.signatures_eq⟩

end DateReviver
