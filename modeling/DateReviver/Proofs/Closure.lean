import DateReviver.Proofs.Conversion
import DateReviver.Proofs.Emission.Occurrences
import DateReviver.Proofs.Output

/-!
# A module is closed and has no dead functions

Every call in an output is one of a function of a type that is there, and every such function is
there for some call: one leads to it from an operation or from a requested type. The way to it is the
way on which its type was first met. There, each type that is left for another has dates inside of
its values as well, and cannot be another name of date-time strings, for such a name leads to no
functions at all.
-/

namespace DateReviver

open DateReviver.OpenApi DateReviver.TypeScript Registry

/-- The names that calls lead to, from the functions of operations and the calls for requested types
on through the functions of types. -/
inductive Output.Reaches (output : Output) : String → Prop
  | operation {f : Function} {name : String} (hf : f ∈ output.operationFunctions)
      (hcall : name ∈ Stmt.callsAll f.body) : Reaches output name
  | site {site : CallSite} {name : String} (hsite : site ∈ output.callSites)
      (hcall : name ∈ site.statement.calls) : Reaches output name
  | function {f : Function} {name : String} (hf : f ∈ output.typeFunctions)
      (h : Reaches output f.name) (hcall : name ∈ Stmt.callsAll f.body) : Reaches output name

/-! ## Other names of date-time strings lead to no functions -/

/-- The plan of another name of date-time strings names only such types. -/
theorem Registry.dateAlias?_of_mentions {r : Registry} {other typeName : String} {own : Plan}
    {inner : Bool} (hplan : r.plan? other = some own) (hmentions : own.Mentions typeName)
    (halias : r.dateAlias? other = some inner) : ∃ inner, r.dateAlias? typeName = some inner := by
  obtain ⟨chain, hchain⟩ := aliasChain_of_aliasWithin halias
  cases hchain with
  | date hdate =>
      rw [hplan, Option.some_inj] at hdate
      subst hdate
      exact absurd hmentions Plan.not_mentions_date
  | delegate hdelegate hrest =>
      rw [hplan, Option.some_inj] at hdelegate
      subst hdelegate
      rw [Plan.mentions_delegate.1 hmentions]
      exact dateAlias?_of_chain hrest

/-- A type whose component names a type that needs a function needs one as well. -/
theorem Registry.NeedsFunction.of_mentions {r : Registry} {other typeName : String}
    {own inner : Plan} (h : r.NeedsFunction typeName inner) (hplan : r.plan? other = some own)
    (hmentions : own.Mentions typeName) : r.NeedsFunction other own := by
  refine ⟨hplan, ?_, ?_⟩
  · obtain ⟨path, nullable, hpart⟩ := hmentions
    exact hpart.holdsDate h.holdsDate_delegate
  · rcases halias : r.dateAlias? other with _ | found
    · rfl
    · obtain ⟨_, hfound⟩ := dateAlias?_of_mentions hplan hmentions halias
      simp [h.notAlias] at hfound

/-! ## Calls in an output -/

section Calls

variable {r : Registry} {policy : GuardPolicy} {typeName name : String}

theorem mem_calls_callSite {statement : Stmt}
    (h : r.callSite? policy typeName = some statement) :
    name ∈ statement.calls ↔ r.Calls (.delegate typeName false) name := by
  rw [← Stmt.callsAll_singleton, ← callSite?_eq_some_iff.1 h]
  exact mem_callsAll_statements rfl

theorem map_typeName_filterMap (call? : String → Option Stmt) (typeNames : List String) :
    (typeNames.filterMap fun typeName => (call? typeName).map (CallSite.mk typeName)).map
      CallSite.typeName = typeNames.filter fun typeName => (call? typeName).isSome := by
  induction typeNames with
  | nil => rfl
  | cons typeName rest ih =>
      rcases hcall : call? typeName with _ | statement
      · simpa [hcall] using ih
      · simpa [hcall] using ih

end Calls

namespace Output.MadeFrom

variable {options : Options} {doc : Document} {r : Registry} {operations : List OperationPlan}
  {output : Output} (h : output.MadeFrom options doc r operations)

include h

theorem exists_typeFunction {plan : Plan} {name : String} (hcalls : r.Calls plan name) :
    ∃ g ∈ output.typeFunctions, g.name = name := by
  obtain ⟨typeName, own, _, hneeds, rfl⟩ := hcalls
  exact ⟨_, h.written.mem_typeFunctions hneeds, rfl⟩

theorem mem_callSites_iff {site : CallSite} : site ∈ output.callSites ↔
    site.typeName ∈ options.requested doc ∧
      r.callSite? options.policy site.typeName = some site.statement := by
  rw [h.calls, List.mem_filterMap]
  constructor
  · rintro ⟨typeName, hmem, hsite⟩
    obtain ⟨statement, hstatement, rfl⟩ := Option.map_eq_some_iff.1 hsite
    exact ⟨hmem, hstatement⟩
  · rintro ⟨hmem, hstatement⟩
    exact ⟨site.typeName, hmem, by rw [hstatement]; rfl⟩

/-- Calls lead to the function of every type that the options are about. The induction is on how the
options come to be about it. -/
theorem reaches {typeName : String} {own : Plan} (hinvolves : options.Involves doc typeName)
    (hneeds : r.NeedsFunction typeName own) : output.Reaches (functionName typeName) := by
  induction hinvolves generalizing own with
  | @requested typeName hmem =>
      have hsome : (r.callSite? options.policy typeName).isSome := by
        rw [Option.isSome_iff_ne_none, Ne, callSite?_eq_none_iff, not_not]
        exact hneeds.holdsDate_delegate
      obtain ⟨statement, hstatement⟩ := Option.isSome_iff_exists.1 hsome
      have hsite : ⟨typeName, statement⟩ ∈ output.callSites :=
        h.mem_callSites_iff.2 ⟨hmem, hstatement⟩
      refine .site hsite ((mem_calls_callSite hstatement).2 ?_)
      exact ⟨typeName, own, Plan.mentions_delegate.2 rfl, hneeds, rfl⟩
  | @response endpoint schema typeName hmem hoffer hrefers =>
      have hresponse : (endpoint, schema) ∈ options.responses doc :=
        Options.mem_responses_iff.2 ⟨hmem, hoffer⟩
      obtain ⟨operation, hoperation, hconverts⟩ := exists_of_mem_left h.converts hresponse
      have hmentions := hconverts.translates.mentions_iff.2 hrefers
      obtain ⟨path, nullable, hpart⟩ := id hmentions
      have hdate : r.HoldsDate operation.plan := hpart.holdsDate hneeds.holdsDate_delegate
      have hfunction : r.functionOfOperation options.policy operation
          ∈ output.operationFunctions := by
        rw [h.written.operationFunctions, List.mem_filterMap]
        exact ⟨operation, hoperation, if_pos hdate⟩
      refine .operation hfunction (renders_functionOfOperation.mem_callsAll.2 ?_)
      exact ⟨typeName, own, hmentions, hneeds, rfl⟩
  | @component other typeName schema hother hschema hrefers ih =>
      obtain ⟨component, found, hcomponent, hplan, htranslates⟩ :=
        h.faithful.mirrors other ((h.registered other).2 hother)
      rw [Component, hschema, Option.some_inj] at hcomponent
      subst hcomponent
      have hmentions := htranslates.mentions_iff.2 hrefers
      have hreferring := hneeds.of_mentions hplan hmentions
      refine .function (h.written.mem_typeFunctions hreferring) (ih hreferring) ?_
      exact renders_functionOfType.mem_callsAll.2 ⟨typeName, own, hmentions, hneeds, rfl⟩

theorem typeFunction_reached {g : Function} (hg : g ∈ output.typeFunctions) :
    output.Reaches g.name := by
  obtain ⟨typeNames, _, hiff, hfunctions⟩ := h.typeFunctions
  obtain ⟨typeName, hmem, own, hneeds, rfl⟩ := exists_of_mem_right hfunctions hg
  exact h.reaches ((hiff typeName).1 hmem).1 hneeds

/-- Every function is one for a plan from which dates are reached. -/
theorem exists_renders {f : Function} (hf : f ∈ output.toModule) :
    ∃ plan param, r.HoldsDate plan ∧ r.Renders options.policy plan param f := by
  rcases List.mem_append.1 hf with htype | hoperation
  · obtain ⟨typeNames, _, _, hfunctions⟩ := h.typeFunctions
    obtain ⟨typeName, _, own, hneeds, rfl⟩ := exists_of_mem_right hfunctions htype
    exact ⟨own, _, hneeds.holdsDate, renders_functionOfType⟩
  · obtain ⟨operation, _, hdate, rfl⟩ := h.written.mem_operationFunctions hoperation
    exact ⟨operation.plan, _, hdate, renders_functionOfOperation⟩

open Classical in
theorem callSites_typeNames : output.callSites.map CallSite.typeName =
    (options.requested doc).filter fun typeName => doc.HoldsDate typeName := by
  have hiff : ∀ typeName ∈ options.requested doc,
      (r.callSite? options.policy typeName).isSome ↔ doc.HoldsDate typeName := by
    intro typeName hmem
    have hregistered := (h.registered typeName).2 (.requested hmem)
    obtain ⟨schema, own, hschema, hplan, htranslates⟩ := h.faithful.mirrors typeName hregistered
    have hknows := h.faithful.sound.knows typeName own hplan
    rw [Option.isSome_iff_ne_none, Ne, callSite?_eq_none_iff, not_not, holdsDate_delegate_iff hplan,
      h.faithful.holdsDate_iff htranslates hknows]
    constructor
    · exact fun hdate => ⟨schema, hschema, hdate⟩
    · rintro ⟨found, hfound, hdate⟩
      rw [hschema, Option.some_inj] at hfound
      exact hfound ▸ hdate
  rw [h.calls, map_typeName_filterMap]
  refine List.filter_congr fun typeName hmem => ?_
  rw [Bool.eq_iff_iff, decide_eq_true_iff, hiff typeName hmem]

end Output.MadeFrom

open Classical in
/-- What is generated is closed and has no dead functions. Every call names a function of a type that
is there; every such function is reached, by the names of functions that are called; no function only
returns; and the calls for requested types are there for those from which dates are reached, in the
order and number in which they were requested. -/
theorem generate_closed {options : Options} {doc : Document} {output : Output}
    (hrun : generate options doc = .ok output) :
    (∀ f ∈ output.toModule, ∀ name ∈ Stmt.callsAll f.body,
        ∃ g ∈ output.typeFunctions, g.name = name) ∧
      (∀ site ∈ output.callSites, ∀ name ∈ site.statement.calls,
        ∃ g ∈ output.typeFunctions, g.name = name) ∧
      (∀ g ∈ output.typeFunctions, output.Reaches g.name) ∧
      (∀ f ∈ output.toModule, ∃ statement ∈ f.body, ∀ result, statement ≠ .ret result) ∧
      output.callSites.map CallSite.typeName =
        (options.requested doc).filter fun typeName => doc.HoldsDate typeName := by
  obtain ⟨r, operations, hmade⟩ := exists_madeFrom hrun
  refine ⟨fun f hf name hcall => ?_, fun site hsite name hcall => ?_,
    fun g hg => hmade.typeFunction_reached hg, fun f hf => ?_, hmade.callSites_typeNames⟩
  · obtain ⟨plan, param, _, hrenders⟩ := hmade.exists_renders hf
    exact hmade.exists_typeFunction (hrenders.mem_callsAll.1 hcall)
  · have hstatement := (hmade.mem_callSites_iff.1 hsite).2
    exact hmade.exists_typeFunction ((mem_calls_callSite hstatement).1 hcall)
  · obtain ⟨plan, param, hdate, hrenders⟩ := hmade.exists_renders hf
    exact hrenders.exists_not_ret hdate

/-- The function for entries, which calls itself, is reached from the operation. No type was
requested. -/
theorem generate_closed_chained : ∃ output, generate {} (chained true) = .ok output ∧
    output.Reaches "transformEntryResponse" ∧ output.callSites.map CallSite.typeName = [] := by
  obtain ⟨output, hrun⟩ := generate_ok_iff.2 ⟨_, _, planning_chained true⟩
  obtain ⟨_, _, hreached, _, hcalls⟩ := generate_closed hrun
  have hwritten := writtenFor_of_generate (planning_chained true) hrun
  have hname : functionName "Entry" = "transformEntryResponse" := by decide +kernel
  refine ⟨output, hrun, ?_, hcalls⟩
  rw [← hname]
  exact hreached _ (hwritten.mem_typeFunctions (needsFunction_chained true))

end DateReviver
