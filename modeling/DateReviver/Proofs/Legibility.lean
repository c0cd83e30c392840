import DateReviver.Proofs.Closure
import DateReviver.Proofs.Naming
import DateReviver.Proofs.TypeScript.Legibility

/-!
# What is generated can be read back

All statements that are generated are of the forms that are read back from their text, if only the
names of the functions that they call are names. So the text of a function or of a call has one
reading, whatever the document calls its properties.
-/

namespace DateReviver

open DateReviver.OpenApi DateReviver.TypeScript

section Statements

variable {r : Registry} {policy : GuardPolicy} {nullable : Bool} {value : Expr}

theorem test_isTest {test : Expr} (hvalue : IsPath value)
    (htest : policy.test? nullable value = some test) : IsTest test := by
  unfold GuardPolicy.test? at htest
  split at htest
  · cases htest
    exact .notNull hvalue
  · cases htest
  · cases htest
    exact .present hvalue
  · cases htest
    exact .defined hvalue

theorem guarded_emitted {body : List Stmt} (hvalue : IsPath value) (hbody : ∀ s ∈ body, Emitted s) :
    ∀ s ∈ policy.guarded nullable value body, Emitted s := by
  unfold GuardPolicy.guarded
  split
  · rename_i test htest
    exact List.forall_mem_singleton.2 (.guarded (test_isTest hvalue htest) hbody)
  · exact hbody

theorem dateStatements_emitted (hvalue : IsPath value) :
    ∀ s ∈ dateStatements policy nullable value, Emitted s :=
  guarded_emitted hvalue (List.forall_mem_singleton.2 (.convert hvalue))

theorem callStatement_emitted {typeName : String} (hname : IsName (functionName typeName))
    (hvalue : IsPath value) : Emitted (callStatement typeName nullable value) := by
  have hcall : ∀ s ∈ [Stmt.expr (.call (.ident (functionName typeName)) [value])], Emitted s :=
    List.forall_mem_singleton.2 (.call hname hvalue)
  cases nullable with
  | true => exact .guarded (.present hvalue) hcall
  | false => exact .guarded (.defined hvalue) hcall

namespace Registry

mutual

/-- The statements for a plan on the value of a path are of these forms. The induction is on the
plan. -/
theorem statements_emitted {scope : Scope} {plan : Plan} {value : Expr} (hvalue : IsPath value)
    (hcalls : ∀ name, r.Calls plan name → IsName name) :
    ∀ s ∈ r.statements policy scope plan value, Emitted s := by
  cases plan with
  | primitive =>
      rw [statements_primitive]
      exact List.forall_mem_nil _
  | date nullable => exact dateStatements_emitted hvalue
  | delegate typeName nullable =>
      rw [statements_delegate]
      split
      · exact dateStatements_emitted hvalue
      · rename_i hnone
        split
        · rename_i hdate
          obtain ⟨own, hneeds⟩ := needsFunction_of_holdsDate hdate hnone
          have hname := hcalls _ ⟨typeName, own, Plan.mentions_delegate.2 rfl, hneeds, rfl⟩
          exact List.forall_mem_singleton.2 (callStatement_emitted hname hvalue)
        · exact List.forall_mem_nil _
  | array item nullable =>
      have hindex := (loopName_index scope.loops).isUnreserved.isName
      have hbody : ∀ s ∈ r.statements policy scope.enterLoop item
          (.index value (.ident (loopVariable "i" scope.loops))), Emitted s :=
        statements_emitted (.index hvalue hindex) fun name h => hcalls name (calls_array.2 h)
      rw [statements_array]
      split
      · exact List.forall_mem_nil _
      · exact guarded_emitted hvalue (List.forall_mem_singleton.2 (.forIndex hindex hvalue hbody))
  | map values nullable =>
      have hkey := (loopName_key scope.loops).isUnreserved.isName
      have hbody : ∀ s ∈ r.statements policy scope.enterLoop values
          (.index value (.ident (loopVariable "key" scope.loops))), Emitted s :=
        statements_emitted (.index hvalue hkey) fun name h => hcalls name (calls_map.2 h)
      rw [statements_map]
      split
      · exact List.forall_mem_nil _
      · exact guarded_emitted hvalue (List.forall_mem_singleton.2 (.forKeys hkey hvalue hbody))
  | object properties nullable =>
      have hbody : ∀ s ∈ r.propertyStatements policy scope.enterProperty properties value,
          Emitted s :=
        propertyStatements_emitted hvalue fun property hmem name h =>
          hcalls name (calls_object.2 ⟨property, hmem, h⟩)
      rw [statements_object]
      split
      · exact hbody
      · exact guarded_emitted hvalue hbody

theorem propertyStatements_emitted {scope : Scope} {properties : List (String × Plan)}
    {object : Expr} (hobject : IsPath object)
    (hcalls : ∀ property ∈ properties, ∀ name, r.Calls property.2 name → IsName name) :
    ∀ s ∈ r.propertyStatements policy scope properties object, Emitted s := by
  cases properties with
  | nil =>
      rw [propertyStatements_nil]
      exact List.forall_mem_nil _
  | cons property rest =>
      obtain ⟨name, plan⟩ := property
      rw [List.forall_mem_cons] at hcalls
      rw [propertyStatements_cons, List.forall_mem_append]
      exact ⟨statements_emitted (.property name hobject) hcalls.1,
        propertyStatements_emitted hobject hcalls.2⟩

end

end Registry

end Statements

/-! ## Outputs -/

section Output

variable {options : Options} {doc : Document} {output : Output} {r : Registry}
  {operations : List OperationPlan}

/-- A function on the value of a parameter with a name, of which every function that it calls has
a name. -/
structure Function.Named (f : Function) : Prop where
  params : ∀ param ∈ f.params, IsName param.name
  calls : ∀ name ∈ Stmt.callsAll f.body, IsName name

theorem Registry.Renders.emitted {policy : GuardPolicy} {plan : Plan} {param : Param}
    {f : Function} (h : r.Renders policy plan param f) (hnamed : Function.Named f) :
    ∀ s ∈ f.body, Emitted s := by
  have hparam : IsName param.name := by
    apply hnamed.params
    rw [h.params]
    exact List.mem_singleton_self param
  have hcalls : ∀ name, r.Calls plan name → IsName name :=
    fun name hname => hnamed.calls name (h.mem_callsAll.2 hname)
  obtain ⟨tail, hbody, htail⟩ := h.body
  rw [hbody, List.forall_mem_append]
  refine ⟨Registry.statements_emitted (.ident hparam) hcalls, ?_⟩
  rcases htail with rfl | rfl
  · exact List.forall_mem_nil _
  · exact List.forall_mem_singleton.2 (.ret hparam)

theorem Output.MadeFrom.emitted_of_site (h : output.MadeFrom options doc r operations)
    {site : CallSite} (hsite : site ∈ output.callSites)
    (hnames : ∀ name ∈ site.statement.calls, IsName name) : Emitted site.statement := by
  have hstatement := (h.mem_callSites_iff.1 hsite).2
  have hcalls : ∀ name, r.Calls (.delegate site.typeName false) name → IsName name :=
    fun name hname => hnames name ((mem_calls_callSite hstatement).2 hname)
  have hresponse : IsName "response" := (show IsUnreserved "response" by decide).isName
  have hall : ∀ s ∈ r.statements options.policy .root (.delegate site.typeName false)
      (.ident "response"), Emitted s := Registry.statements_emitted (.ident hresponse) hcalls
  rw [Registry.callSite?_eq_some_iff.1 hstatement] at hall
  exact hall _ (List.mem_singleton_self _)

/-- Whatever is generated is of these forms, where the names of parameters and functions are
names. -/
theorem generate_emitted (h : generate options doc = .ok output) :
    (∀ f ∈ output.toModule, Function.Named f → ∀ s ∈ f.body, Emitted s) ∧
      ∀ site ∈ output.callSites, (∀ name ∈ site.statement.calls, IsName name) →
        Emitted site.statement := by
  obtain ⟨r, operations, hmade⟩ := exists_madeFrom h
  constructor
  · intro f hf hnamed
    obtain ⟨plan, param, _, hrenders⟩ := hmade.exists_renders hf
    exact hrenders.emitted hnamed
  · intro site hsite hnames
    exact hmade.emitted_of_site hsite hnames

end Output

/-- The text of statements has one reading. Emitted statements are read back from their text, so
statements of the same text are the same; and whatever is generated is emitted, where functions and
parameters have names. -/
theorem renderAll_legible :
    (∀ {level : Nat} {statements : List Stmt}, (∀ s ∈ statements, Emitted s) →
      readAll level (Stmt.renderAll level statements) = some statements) ∧
    (∀ {level : Nat} {first second : List Stmt}, (∀ s ∈ first, Emitted s) →
      (∀ s ∈ second, Emitted s) →
        Stmt.renderAll level first = Stmt.renderAll level second → first = second) ∧
    (∀ {options : Options} {doc : Document} {output : Output},
      generate options doc = .ok output →
        (∀ f ∈ output.toModule, Function.Named f → ∀ s ∈ f.body, Emitted s) ∧
          ∀ site ∈ output.callSites, (∀ name ∈ site.statement.calls, IsName name) →
            Emitted site.statement) := by
  refine ⟨fun h => readAll_renderAll h _, ?_, generate_emitted⟩
  intro level first second hfirst hsecond hsame
  have hread := readAll_renderAll hfirst level
  rw [hsame, readAll_renderAll hsecond level] at hread
  exact (Option.some.inj hread).symm

/-- A property whose name looks like the end of a statement is read back as a property. -/
theorem renderAll_legible_quoted :
    let value := (Expr.ident "pet").property "\"]; return x; //"
    readAll 1 (Stmt.renderAll 1 [.guarded (isDefined value) [convertDate value]]) =
      some [.guarded (isDefined value) [convertDate value]] := by
  intro value
  have hpet : IsName "pet" := (show IsUnreserved "pet" by decide).isName
  have hvalue : IsPath value := .property _ (.ident hpet)
  have hbody : ∀ s ∈ [convertDate value], Emitted s :=
    List.forall_mem_singleton.2 (.convert hvalue)
  exact renderAll_legible.1 (List.forall_mem_singleton.2 (.guarded (.defined hvalue) hbody))

end DateReviver
