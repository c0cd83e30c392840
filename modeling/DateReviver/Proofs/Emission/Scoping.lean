import DateReviver.Proofs.Emission.Occurrences
import DateReviver.Proofs.TypeScript.Scoping

/-!
# Names in the statements for a plan

The variables of loops tell their level, so loops that are nested never share one. If moreover the
parameter is none of them, no name of the language and no function that is called, then every name in
the statements means what it stands there for. The induction is on the plan: it goes into a loop with
the loop's variable bound to what it walks.
-/

namespace DateReviver

open DateReviver.TypeScript

/-! ## Nested loops -/

/-- Variables of loops, all of them above a level. -/
def Above (level : Nat) (names : List String) : Prop :=
  ∀ name ∈ names, ∃ above < level, LoopName above name

theorem Above.nil {level : Nat} : Above level [] :=
  fun _ hmem => absurd hmem List.not_mem_nil

/-- The variable of a loop is none of the loops around it. -/
theorem Above.not_mem {level : Nat} {names : List String} {name : String} (h : Above level names)
    (hname : LoopName level name) : name ∉ names := by
  intro hmem
  obtain ⟨above, habove, hother⟩ := h name hmem
  have hlevel : above = level := hother.level_eq hname
  omega

theorem Above.cons {level : Nat} {names : List String} {name : String} (h : Above level names)
    (hname : LoopName level name) : Above (level + 1) (name :: names) := by
  intro other hmem
  rcases List.mem_cons.1 hmem with rfl | hrest
  · exact ⟨level, by omega, hname⟩
  · obtain ⟨above, habove, hother⟩ := h other hrest
    exact ⟨above, by omega, hother⟩

section LoopsApart

variable {policy : GuardPolicy} {nullable : Bool} {value : Expr} {body : List Stmt}
  {outer : List String}

theorem loopsApart_guarded (h : Stmt.LoopsApartAll outer body) :
    Stmt.LoopsApartAll outer (policy.guarded nullable value body) := by
  unfold GuardPolicy.guarded
  split
  · exact ⟨h, trivial⟩
  · exact h

theorem loopsApart_dateStatements :
    Stmt.LoopsApartAll outer (dateStatements policy nullable value) :=
  loopsApart_guarded ⟨trivial, trivial⟩

end LoopsApart

namespace Registry

variable {r : Registry} {policy : GuardPolicy}

mutual

theorem loopsApart_statements {scope : Scope} {plan : Plan} {value : Expr} {outer : List String}
    (houter : Above scope.loops outer) :
    Stmt.LoopsApartAll outer (r.statements policy scope plan value) := by
  cases plan with
  | primitive =>
      rw [statements_primitive]
      trivial
  | date nullable =>
      rw [statements_date]
      exact loopsApart_dateStatements
  | delegate typeName nullable =>
      rw [statements_delegate]
      split
      · exact loopsApart_dateStatements
      · split
        · exact ⟨⟨trivial, trivial⟩, trivial⟩
        · trivial
  | array item nullable =>
      have hname : LoopName scope.loops (loopVariable "i" scope.loops) := .inl rfl
      have hbody : Stmt.LoopsApartAll (loopVariable "i" scope.loops :: outer)
          (r.statements policy scope.enterLoop item
            (.index value (.ident (loopVariable "i" scope.loops)))) :=
        loopsApart_statements (houter.cons hname)
      rw [statements_array]
      split
      · trivial
      · exact loopsApart_guarded ⟨⟨houter.not_mem hname, hbody⟩, trivial⟩
  | map values nullable =>
      have hname : LoopName scope.loops (loopVariable "key" scope.loops) := .inr rfl
      have hbody : Stmt.LoopsApartAll (loopVariable "key" scope.loops :: outer)
          (r.statements policy scope.enterLoop values
            (.index value (.ident (loopVariable "key" scope.loops)))) :=
        loopsApart_statements (houter.cons hname)
      rw [statements_map]
      split
      · trivial
      · exact loopsApart_guarded ⟨⟨houter.not_mem hname, hbody⟩, trivial⟩
  | object properties nullable =>
      have hbody : Stmt.LoopsApartAll outer
          (r.propertyStatements policy scope.enterProperty properties value) :=
        loopsApart_propertyStatements houter
      rw [statements_object]
      split
      · exact hbody
      · exact loopsApart_guarded hbody

theorem loopsApart_propertyStatements {scope : Scope} {properties : List (String × Plan)}
    {object : Expr} {outer : List String}
    (houter : Above scope.loops outer) :
    Stmt.LoopsApartAll outer (r.propertyStatements policy scope properties object) := by
  cases properties with
  | nil =>
      rw [propertyStatements_nil]
      trivial
  | cons property rest =>
      obtain ⟨name, plan⟩ := property
      rw [propertyStatements_cons]
      exact Stmt.loopsApartAll_append.2
        ⟨loopsApart_statements houter, loopsApart_propertyStatements houter⟩

end

end Registry

/-! ## Clear statements -/

/-- A place under so many loops of an emission, where the parameter is none of the names that are
meant otherwise. -/
structure Fair (s : Scoping) (level : Nat) : Prop where
  named : ∀ name ∈ s.functions, name.toList.head? = some 't'
  loops : Above level (s.loops.map Prod.fst)
  shown : s.param ∉ s.loops.map Prod.fst
  globals : s.param ∉ globalNames

namespace Fair

variable {s : Scoping} {level : Nat} {name : String} {value : Expr}

theorem lookup_eq_none (h : name ∉ s.loops.map Prod.fst) : s.loops.lookup name = none := by
  rw [List.lookup_eq_none_iff]
  intro loop hloop
  rw [bne_iff_ne]
  rintro rfl
  exact h (List.mem_map_of_mem hloop)

theorem not_mem_loops (h : Fair s level) {c : Char} (hhead : name.toList.head? = some c)
    (hi : c ≠ 'i') (hk : c ≠ 'k') : name ∉ s.loops.map Prod.fst := by
  intro hmem
  obtain ⟨above, _, hname⟩ := h.loops name hmem
  exact not_loopName_of_head? hhead hi hk above hname

theorem global (h : Fair s level) (hmem : name ∈ globalNames) : s.Global name := by
  have hhead : ∃ c, name.toList.head? = some c ∧ c ≠ 'i' ∧ c ≠ 'k' ∧ c ≠ 't' := by
    simp only [globalNames, List.mem_cons, List.not_mem_nil, or_false] at hmem
    rcases hmem with rfl | rfl | rfl
    · exact ⟨'u', rfl, by decide⟩
    · exact ⟨'D', rfl, by decide⟩
    · exact ⟨'O', rfl, by decide⟩
  obtain ⟨c, hhead, hi, hk, ht⟩ := hhead
  refine ⟨⟨lookup_eq_none (h.not_mem_loops hhead hi hk), ?_⟩, fun hfunction => ?_⟩
  · rintro rfl
    exact h.globals hmem
  · rw [h.named name hfunction, Option.some_inj] at hhead
    exact ht hhead.symm

theorem callable (h : Fair s level) (hmem : name ∈ s.functions) (hne : name ≠ s.param) :
    s.Callable name :=
  ⟨⟨lookup_eq_none (h.not_mem_loops (h.named name hmem) (by decide) (by decide)), hne⟩, hmem⟩

theorem param (h : Fair s level) : s.Path (.ident s.param) :=
  .param (lookup_eq_none h.shown)

theorem enter (h : Fair s level) (hname : LoopName level name) (hne : name ≠ s.param) :
    Fair (s.enter name value) (level + 1) := by
  refine ⟨h.named, h.loops.cons hname, ?_, h.globals⟩
  exact List.not_mem_cons_of_ne_of_not_mem hne.symm h.shown

/-- A new loop hides nothing that an access path uses. -/
theorem path_enter (h : Fair s level) (hname : LoopName level name) (hne : name ≠ s.param)
    {walked : Expr} (hpath : s.Path value) : (s.enter name walked).Path value := by
  induction hpath with
  | param => exact (h.enter hname hne).param
  | member _ ih => exact .member ih
  | text _ ih => exact .text ih
  | @element object key _ hloop ih =>
      refine .element ih ?_
      have hfresh : key ≠ name := by
        rintro rfl
        rw [lookup_eq_none (h.loops.not_mem hname)] at hloop
        cases hloop
      rw [Scoping.enter, List.lookup_cons, beq_false_of_ne hfresh]
      exact hloop

/-- Inside of a new loop, its variable leads on from what it walks. -/
theorem path_element (h : Fair s level) (hname : LoopName level name) (hne : name ≠ s.param)
    (hpath : s.Path value) : (s.enter name value).Path (.index value (.ident name)) := by
  refine .element (h.path_enter hname hne hpath) ?_
  rw [Scoping.enter, List.lookup_cons, beq_self_eq_true]

theorem clear_guarded {policy : GuardPolicy} {nullable : Bool} {body : List Stmt}
    (h : Fair s level) (hvalue : s.Path value) (hbody : ∀ statement ∈ body, s.Clear statement) :
    ∀ statement ∈ policy.guarded nullable value body, s.Clear statement := by
  have hdefined : s.Test (isDefined value) := .isDefined hvalue (h.global (by simp [globalNames]))
  have hnotNull : s.Test (isNotNull value) := .isNotNull hvalue
  rcases policy with ⟨_ | _⟩ <;> rcases nullable with _ | _
  · exact List.forall_mem_singleton.2 (.guarded hdefined hbody)
  · exact List.forall_mem_singleton.2 (.guarded (.both hdefined hnotNull) hbody)
  · exact hbody
  · exact List.forall_mem_singleton.2 (.guarded hnotNull hbody)

theorem clear_dateStatements {policy : GuardPolicy} {nullable : Bool} (h : Fair s level)
    (hvalue : s.Path value) : ∀ statement ∈ dateStatements policy nullable value,
      s.Clear statement :=
  h.clear_guarded hvalue
    (List.forall_mem_singleton.2 (.date hvalue (h.global (by simp [globalNames]))))

theorem clear_callStatement {typeName : String} {nullable : Bool} (h : Fair s level)
    (hvalue : s.Path value) (hcallable : s.Callable (functionName typeName)) :
    s.Clear (callStatement typeName nullable value) := by
  have hdefined : s.Test (isDefined value) := .isDefined hvalue (h.global (by simp [globalNames]))
  refine .guarded ?_ (List.forall_mem_singleton.2 (.call hcallable hvalue))
  split
  · exact .both hdefined (.isNotNull hvalue)
  · exact hdefined

end Fair

namespace Registry

variable {r : Registry} {policy : GuardPolicy}

/-- The parameter is none of the functions that are called for a plan, which are all there, and none
of the loops. -/
structure Spares (r : Registry) (s : Scoping) (plan : Plan) (level : Nat) : Prop where
  calls : ∀ name, r.Calls plan name → name ∈ s.functions ∧ name ≠ s.param
  loops : ∀ name, r.Loops plan level name → name ≠ s.param

section Spares

variable {s : Scoping} {level : Nat} {nullable : Bool} {name : String} {walked : Expr}

theorem Spares.item {item : Plan} (h : r.Spares s (.array item nullable) level) :
    r.Spares (s.enter name walked) item (level + 1) :=
  ⟨fun other hcalls => h.calls other (calls_array.2 hcalls),
    fun other hloops => h.loops other (loops_array.2 (.inr hloops))⟩

theorem Spares.values {values : Plan} (h : r.Spares s (.map values nullable) level) :
    r.Spares (s.enter name walked) values (level + 1) :=
  ⟨fun other hcalls => h.calls other (calls_map.2 hcalls),
    fun other hloops => h.loops other (loops_map.2 (.inr hloops))⟩

theorem Spares.property {properties : List (String × Plan)} {property : String × Plan}
    (h : r.Spares s (.object properties nullable) level) (hmem : property ∈ properties) :
    r.Spares s property.2 level :=
  ⟨fun other hcalls => h.calls other (calls_object.2 ⟨property, hmem, hcalls⟩),
    fun other hloops => h.loops other (loops_object.2 ⟨property, hmem, hloops⟩)⟩

end Spares

mutual

/-- Every name in the statements for a plan means what it stands there for. -/
theorem clear_statements {s : Scoping} {scope : Scope} {plan : Plan} {value : Expr}
    (hfair : Fair s scope.loops) (hspares : r.Spares s plan scope.loops) (hvalue : s.Path value) :
    ∀ statement ∈ r.statements policy scope plan value, s.Clear statement := by
  cases plan with
  | primitive =>
      rw [statements_primitive]
      exact List.forall_mem_nil _
  | date nullable =>
      rw [statements_date]
      exact hfair.clear_dateStatements hvalue
  | delegate typeName nullable =>
      rw [statements_delegate]
      split
      · exact hfair.clear_dateStatements hvalue
      · rename_i hnone
        split
        · rename_i hdate
          obtain ⟨own, hneeds⟩ := needsFunction_of_holdsDate hdate hnone
          obtain ⟨hmem, hne⟩ := hspares.calls (functionName typeName)
            ⟨typeName, own, Plan.mentions_delegate.2 rfl, hneeds, rfl⟩
          exact List.forall_mem_singleton.2
            (hfair.clear_callStatement hvalue (hfair.callable hmem hne))
        · exact List.forall_mem_nil _
  | array item nullable =>
      rw [statements_array]
      split
      · exact List.forall_mem_nil _
      · rename_i hbody
        have hdate : r.HoldsDate item := by
          rwa [List.isEmpty_iff, statements_eq_nil_iff, not_not] at hbody
        have hname : LoopName scope.loops (loopVariable "i" scope.loops) := .inl rfl
        have hne := hspares.loops _ (loops_array.2 (.inl ⟨hdate, rfl⟩))
        refine hfair.clear_guarded hvalue (List.forall_mem_singleton.2 (.forIndex ?_ ?_))
        · exact hfair.path_enter hname hne hvalue
        · exact clear_statements (hfair.enter hname hne) hspares.item
            (hfair.path_element hname hne hvalue)
  | map values nullable =>
      rw [statements_map]
      split
      · exact List.forall_mem_nil _
      · rename_i hbody
        have hdate : r.HoldsDate values := by
          rwa [List.isEmpty_iff, statements_eq_nil_iff, not_not] at hbody
        have hname : LoopName scope.loops (loopVariable "key" scope.loops) := .inr rfl
        have hne := hspares.loops _ (loops_map.2 (.inl ⟨hdate, rfl⟩))
        have hinner : Fair (s.enter (loopVariable "key" scope.loops) value) (scope.loops + 1) :=
          hfair.enter hname hne
        refine hfair.clear_guarded hvalue (List.forall_mem_singleton.2 (.forOf ?_ ?_ ?_))
        · exact hfair.path_enter hname hne hvalue
        · exact hinner.global (by simp [globalNames])
        · exact clear_statements hinner hspares.values (hfair.path_element hname hne hvalue)
  | object properties nullable =>
      have hbody : ∀ statement ∈ r.propertyStatements policy scope.enterProperty properties value,
          s.Clear statement :=
        clear_propertyStatements hfair (fun property hmem => hspares.property hmem) hvalue
      rw [statements_object]
      split
      · exact hbody
      · exact hfair.clear_guarded hvalue hbody

theorem clear_propertyStatements {s : Scoping} {scope : Scope} {properties : List (String × Plan)}
    {object : Expr} (hfair : Fair s scope.loops)
    (hspares : ∀ property ∈ properties, r.Spares s property.2 scope.loops)
    (hobject : s.Path object) :
    ∀ statement ∈ r.propertyStatements policy scope properties object, s.Clear statement := by
  cases properties with
  | nil =>
      rw [propertyStatements_nil]
      exact List.forall_mem_nil _
  | cons property rest =>
      obtain ⟨name, plan⟩ := property
      have hproperty : s.Path (object.property name) := by
        unfold Expr.property
        split
        · exact .text hobject
        · exact .member hobject
      rw [propertyStatements_cons]
      refine List.forall_mem_append.2 ⟨?_, ?_⟩
      · exact clear_statements hfair (hspares _ List.mem_cons_self) hproperty
      · exact clear_propertyStatements hfair
          (fun other hmem => hspares other (List.mem_cons_of_mem _ hmem)) hobject

end

/-! ## Functions -/

section Renders

variable {plan : Plan} {param : Param} {f : Function}

theorem Renders.loopsApart (h : r.Renders policy plan param f) : Stmt.LoopsApartAll [] f.body := by
  obtain ⟨tail, hbody, htail⟩ := h.body
  rw [hbody, Stmt.loopsApartAll_append]
  refine ⟨loopsApart_statements Above.nil, ?_⟩
  rcases htail with rfl | rfl
  · trivial
  · exact ⟨trivial, trivial⟩

/-- Only the name of the parameter may be captured in a function, or capture another. -/
theorem Renders.captureFree_iff (h : r.Renders policy plan param f) : f.CaptureFree ↔
    param.name ∉ globalNames ∧ ¬ r.Calls plan param.name ∧ ¬ r.Loops plan 0 param.name := by
  rw [← h.mem_callsAll, ← h.mem_loopsAll]
  constructor
  · intro hfree
    have hmem : param ∈ f.params := by
      rw [h.params]
      exact List.mem_cons_self
    exact ⟨hfree.globals param hmem, hfree.calls param hmem, hfree.loops param hmem⟩
  · rintro ⟨hglobals, hcalls, hloops⟩
    have hone : ∀ other ∈ f.params, other = param := by
      intro other hmem
      rwa [h.params, List.mem_singleton] at hmem
    constructor
    · exact h.loopsApart
    · exact fun other hmem => hone other hmem ▸ hloops
    · exact fun other hmem => hone other hmem ▸ hglobals
    · exact fun other hmem => hone other hmem ▸ hcalls

/-- If nothing is captured in a function, then every name in it means what it stands there for. -/
theorem Renders.clear {functions : List String} (h : r.Renders policy plan param f)
    (hfree : f.CaptureFree) (hnamed : ∀ name ∈ functions, name.toList.head? = some 't')
    (hcalls : ∀ name, r.Calls plan name → name ∈ functions) : f.Clear functions := by
  obtain ⟨hglobals, hcallees, hloops⟩ := h.captureFree_iff.1 hfree
  obtain ⟨tail, hbody, htail⟩ := h.body
  have hfair : Fair ⟨functions, param.name, []⟩ 0 :=
    ⟨hnamed, Above.nil, List.not_mem_nil, hglobals⟩
  have hspares : r.Spares ⟨functions, param.name, []⟩ plan 0 := by
    constructor
    · intro name hname
      refine ⟨hcalls name hname, ?_⟩
      rintro rfl
      exact hcallees hname
    · rintro name hname rfl
      exact hloops hname
  refine ⟨param, h.params, ?_⟩
  rw [hbody]
  refine List.forall_mem_append.2 ⟨clear_statements hfair hspares hfair.param, ?_⟩
  rcases htail with rfl | rfl
  · exact List.forall_mem_nil _
  · exact List.forall_mem_singleton.2 (.ret hfair.param)

end Renders

end Registry

end DateReviver
