import DateReviver.Proofs.Closure
import DateReviver.Proofs.Emission.Scoping

/-!
# When a parameter is captured

The parameter of the function for a type is named after the type, and nothing keeps that name apart
from the other names in the body. Whether they meet can be told from the component of the type: by
the loops that its arrays and maps need, and by the types that it refers to. Apart from this, every
name in what is generated means what it stands there for.
-/

namespace DateReviver

open DateReviver.OpenApi DateReviver.TypeScript Registry

/-- A schema refers to a type that needs a function of this name. -/
def OpenApi.Schema.Calls (doc : Document) (schema : Schema) (name : String) : Prop :=
  ∃ typeName, schema.Refers typeName ∧ doc.NeedsFunction typeName ∧ functionName typeName = name

/-- In a schema there is an array or a map from whose items or entries dates are reached, and the
loop over it has this variable. -/
def OpenApi.Schema.Loops (doc : Document) (schema : Schema) (name : String) : Prop :=
  ∃ path step inner, schema.Part (path ++ [step]) inner ∧ inner.HoldsDate doc ∧
    step.loop? (loopsAlong path) = some name

/-- The parameter for a type has a name that the language, a function that is called or a loop has as
well. -/
def OpenApi.Document.Captures (doc : Document) (typeName : String) : Prop :=
  parameterName typeName ∈ globalNames ∨ ∃ schema, doc.schema? typeName = some schema ∧
    (schema.Calls doc (parameterName typeName) ∨ schema.Loops doc (parameterName typeName))

/-! ## Told from the component -/

theorem Access.loopName_of_loop? {step : Access} {level : Nat} {name : String}
    (h : step.loop? level = some name) : LoopName level name := by
  cases step with
  | item => exact .inl (Option.some_inj.1 h).symm
  | entry => exact .inr (Option.some_inj.1 h).symm
  | property => cases h

section Faithful

variable {doc : Document} {r : Registry} {schema : Schema} {plan : Plan} {name : String}

theorem Registry.Faithful.holdsDate_orNullIf_iff {condition : Bool} (h : r.Faithful doc)
    (htranslates : Translates doc schema plan) (hknows : r.Knows (plan.orNullIf condition)) :
    r.HoldsDate (plan.orNullIf condition) ↔ schema.HoldsDate doc := by
  cases condition with
  | false =>
      rw [Plan.orNullIf_false] at hknows ⊢
      exact h.holdsDate_iff htranslates hknows
  | true =>
      rw [Plan.orNullIf_true] at hknows ⊢
      exact holdsDate_orNull.trans (h.holdsDate_iff htranslates hknows.of_orNull)

theorem Registry.Faithful.calls_iff (h : r.Faithful doc) (htranslates : Translates doc schema plan)
    (hknows : r.Knows plan) : r.Calls plan name ↔ schema.Calls doc name := by
  constructor
  · rintro ⟨typeName, own, hmentions, hneeds, hname⟩
    have hmem := mem_typeNames_of_plan? hneeds.plan?
    exact ⟨typeName, htranslates.mentions_iff.1 hmentions, (h.needsFunction_iff hmem).1 ⟨own, hneeds⟩,
      hname⟩
  · rintro ⟨typeName, hrefers, hneeds, hname⟩
    have hmentions := htranslates.mentions_iff.2 hrefers
    have hmem := hmentions.mem_typeNames hknows
    obtain ⟨own, hown⟩ := (h.needsFunction_iff hmem).2 hneeds
    exact ⟨typeName, own, hmentions, hown, hname⟩

theorem Registry.Faithful.loops_iff (h : r.Faithful doc) (htranslates : Translates doc schema plan)
    (hknows : r.Knows plan) : r.Loops plan 0 name ↔ schema.Loops doc name := by
  constructor
  · rintro ⟨path, step, inner, hpart, hdate, hname⟩
    have hne : inner ≠ .primitive := by
      rintro rfl
      exact not_holdsDate_primitive hdate
    obtain ⟨source, hsource, hinner⟩ := htranslates.exists_part hpart hne
    have hknown := hknows.of_part hpart
    rw [Nat.zero_add] at hname
    exact ⟨path, step, source, hsource, (h.holdsDate_iff hinner hknown).1 hdate, hname⟩
  · rintro ⟨path, step, source, hsource, hdate, hname⟩
    obtain ⟨inner, condition, hpart, hinner⟩ := hsource.exists_plan htranslates
    have hknown := hknows.of_part hpart
    rw [← Nat.zero_add (loopsAlong path)] at hname
    exact ⟨path, step, _, hpart, (h.holdsDate_orNullIf_iff hinner hknown).2 hdate, hname⟩

/-- Whether the parameter for a type is captured is told by the component of the type. -/
theorem Registry.Faithful.captures_iff {typeName : String} (h : r.Faithful doc)
    (hplan : r.plan? typeName = some plan) : doc.Captures typeName ↔
      parameterName typeName ∈ globalNames ∨ r.Calls plan (parameterName typeName) ∨
        r.Loops plan 0 (parameterName typeName) := by
  obtain ⟨schema, hschema, htranslates, hknows⟩ := h.component hplan
  rw [Document.Captures, h.calls_iff htranslates hknows, h.loops_iff htranslates hknows]
  simp [hschema]

end Faithful

/-! ## The functions of an output -/

namespace Output.MadeFrom

variable {options : Options} {doc : Document} {r : Registry} {operations : List OperationPlan}
  {output : Output} (h : output.MadeFrom options doc r operations)

include h

/-- Nothing is captured in a function if its parameter is apart from all other names. -/
theorem captureFree_of_paramApart {f : Function} (hf : f ∈ output.toModule)
    (hapart : ∀ param ∈ f.params, ParamApart output.toModule param.name) : f.CaptureFree := by
  obtain ⟨plan, param, _, hrenders⟩ := h.exists_renders hf
  have hparam : ParamApart output.toModule param.name := by
    refine hapart param ?_
    rw [hrenders.params]
    exact List.mem_cons_self
  refine hrenders.captureFree_iff.2 ⟨?_, fun hcalls => ?_, ?_⟩
  · simp [globalNames, hparam.undefined, hparam.date, hparam.object]
  · obtain ⟨g, hg, hname⟩ := h.exists_typeFunction hcalls
    exact hparam.functions g (List.mem_append_left _ hg) hname
  · rintro ⟨path, step, inner, _, _, hname⟩
    exact hparam.loops _ (Access.loopName_of_loop? hname)

/-- The parameter of operations is no name that anything else has. -/
theorem operationFunction_captureFree {f : Function} (hf : f ∈ output.operationFunctions) :
    f.CaptureFree := by
  refine h.captureFree_of_paramApart (List.mem_append_right _ hf) fun param hparam => ?_
  obtain ⟨operation, _, _, rfl⟩ := h.written.mem_operationFunctions hf
  have hresponse : ParamApart output.toModule "response" :=
    .of_head? h.written.named rfl (by decide)
  rw [List.mem_singleton.1 hparam]
  exact hresponse

theorem clear_of_captureFree {f : Function} (hf : f ∈ output.toModule) (hfree : f.CaptureFree) :
    f.Clear (output.toModule.map Function.name) := by
  obtain ⟨plan, param, _, hrenders⟩ := h.exists_renders hf
  refine hrenders.clear hfree (List.forall_mem_map.2 h.written.named) fun name hcalls => ?_
  obtain ⟨g, hg, rfl⟩ := h.exists_typeFunction hcalls
  exact List.mem_map_of_mem (List.mem_append_left _ hg)

/-- In the function for a type something is captured exactly if the parameter for the type is. -/
theorem functionOfType_captureFree {typeName : String} {own : Plan}
    (hneeds : r.NeedsFunction typeName own) :
    (r.functionOfType options.policy typeName own).CaptureFree ↔ ¬ doc.Captures typeName := by
  rw [renders_functionOfType.captureFree_iff, h.faithful.captures_iff hneeds.plan?, not_or, not_or]

end Output.MadeFrom

/-- Loops that are nested have different variables in every function that is generated, and nothing
is captured in the functions of operations. In the function for a type, nothing is captured exactly
if the parameter for the type has no name that the language, a function that is called or a loop has.
Where nothing is captured, every name in the function means what it stands there for. -/
theorem generate_captureFree_iff {options : Options} {doc : Document} {output : Output}
    (hrun : generate options doc = .ok output) :
    (∀ f ∈ output.toModule, Stmt.LoopsApartAll [] f.body) ∧
      (∀ f ∈ output.operationFunctions, f.CaptureFree) ∧
      (∃ typeNames : List String, typeNames.Nodup ∧
        (∀ typeName, typeName ∈ typeNames ↔ options.ConvertsType doc typeName) ∧
        List.Forall₂ (fun typeName f => f.name = functionName typeName ∧
          f.params = [⟨parameterName typeName, some (.named typeName)⟩] ∧
          (f.CaptureFree ↔ ¬ doc.Captures typeName)) typeNames output.typeFunctions) ∧
      ∀ f ∈ output.toModule, f.CaptureFree → f.Clear (output.toModule.map Function.name) := by
  obtain ⟨r, operations, hmade⟩ := exists_madeFrom hrun
  obtain ⟨typeNames, hnodup, htypes, hfunctions⟩ := hmade.typeFunctions
  refine ⟨fun f hf => ?_, fun f hf => hmade.operationFunction_captureFree hf,
    ⟨typeNames, hnodup, htypes, hfunctions.imp ?_⟩, fun f hf => hmade.clear_of_captureFree hf⟩
  · obtain ⟨plan, param, _, hrenders⟩ := hmade.exists_renders hf
    exact hrenders.loopsApart
  · rintro typeName f ⟨own, hneeds, rfl⟩
    exact ⟨rfl, rfl, hmade.functionOfType_captureFree hneeds⟩

/-- The parameter for entries means nothing else in their function, and so all names there mean what
they should. -/
theorem generate_captureFree_iff_chained : ∃ output f, generate {} (chained true) = .ok output ∧
    f ∈ output.typeFunctions ∧ ¬ (chained true).Captures "Entry" ∧
      f.Clear (output.toModule.map Function.name) := by
  obtain ⟨output, hrun⟩ := generate_ok_iff.2 ⟨_, _, planning_chained true⟩
  obtain ⟨r, operations, hmade⟩ := exists_madeFrom hrun
  have hf := (writtenFor_of_generate (planning_chained true) hrun).mem_typeFunctions
    (needsFunction_chained true)
  have hmem := List.mem_append_left output.operationFunctions hf
  have hfree := hmade.captureFree_of_paramApart hmem
    ((namesApart_chained true hrun).params _ hmem)
  obtain ⟨_, _, ⟨typeNames, _, _, hfunctions⟩, hclear⟩ := generate_captureFree_iff hrun
  obtain ⟨typeName, _, _, hparams, hiff⟩ := exists_of_mem_right hfunctions hf
  have hname : "Entry" = typeName := by
    have htype : some (Ty.named "Entry") = some (Ty.named typeName) :=
      congrArg Param.type (List.head_eq_of_cons_eq hparams)
    simpa using htype
  subst hname
  exact ⟨output, _, hrun, hf, hiff.1 hfree, hclear _ hmem hfree⟩

/-! ## A type with a name of one letter -/

/-- An array of date-time strings. -/
def dateTimes : Schema :=
  .object { Keywords.bare with type := some (.one "array"), items := some .dateTime }

/-- An object with such an array. -/
def dated : Schema :=
  .object { Keywords.bare with properties := some [("at", dateTimes)] }

/-- A component that is named after the letter of loop variables. -/
def initialled : Document :=
  ⟨.ofList [], some ⟨some (.ofList [("I", dated)])⟩⟩

theorem inside_dated : dated.Inside [([.property "at"], dateTimes)] :=
  @Schema.Inside.object _ [("at", dateTimes)] (isOpen_of_untyped ⟨rfl, rfl, rfl⟩ rfl) rfl rfl rfl

theorem inside_dateTimes : dateTimes.Inside [([.item], .dateTime)] :=
  .array ⟨rfl, rfl, rfl⟩ rfl rfl

/-- A document without operations, and with such an object for its only component. -/
def lone (typeName : String) : Document :=
  ⟨.ofList [], some ⟨some (.ofList [(typeName, dated)])⟩⟩

theorem endpoints_lone (typeName : String) : endpoints (lone typeName) = [] := by
  have hpaths : (lone typeName).paths.entries = [] := rfl
  simp [endpoints, hpaths]

theorem schema?_lone (typeName : String) : (lone typeName).schema? typeName = some dated := by
  have hlookup : (lone typeName).schema? typeName = [(typeName, dated)].lookup typeName := rfl
  rw [hlookup, List.lookup_cons_self]

theorem generate_lone (typeName : String) :
    ∃ output, generate { types := [typeName] } (lone typeName) = .ok output := by
  have hdate : Schema.dateTime.Inside [] :=
    .text (isOpen_of_untyped ⟨rfl, rfl, rfl⟩ rfl) rfl
  have hstart : Walk.start { types := [typeName] } (lone typeName) =
      ⟨[], [], [.type typeName]⟩ := by
    simp [Walk.start, Options.requested, Options.operations, endpoints_lone]
  rw [generate_ok_iff_steps, hstart]
  refine ⟨_, _, .tail (.tail (.tail (.single (.newType (schema?_lone typeName) ?_))
    (.inside inside_dated)) (.inside inside_dateTimes)) (.inside hdate)⟩
  exact List.not_mem_nil

theorem convertsType_lone (typeName : String) :
    Options.ConvertsType { types := [typeName] } (lone typeName) typeName := by
  have hdate : Schema.dateTime.DateAt (lone typeName) [] false :=
    .here (isOpen_of_untyped ⟨rfl, rfl, rfl⟩ rfl) rfl rfl
  have hdates : dateTimes.DateAt (lone typeName) [.item] false :=
    .item ⟨rfl, rfl, rfl⟩ rfl rfl hdate
  have hinside : dated.DateAt (lone typeName) [.property "at", .item] false :=
    .property (isOpen_of_untyped ⟨rfl, rfl, rfl⟩ rfl) rfl rfl List.mem_cons_self hdates
  exact ⟨.requested List.mem_cons_self, dated, _, _, schema?_lone typeName, hinside,
    List.cons_ne_nil _ _⟩

theorem generate_initialled : ∃ output, generate { types := ["I"] } initialled = .ok output :=
  generate_lone "I"

/-- The loop in the function for the component hides the parameter. -/
theorem captured_initialled : ∃ output f, generate { types := ["I"] } initialled = .ok output ∧
    f ∈ output.toModule ∧ ⟨"i", some (.named "I")⟩ ∈ f.params ∧ "i" ∈ Stmt.loopsAll f.body := by
  obtain ⟨output, hrun⟩ := generate_initialled
  obtain ⟨r, operations, hmade⟩ := exists_madeFrom hrun
  have hdate : Schema.dateTime.DateAt initialled [] false :=
    .here (isOpen_of_untyped ⟨rfl, rfl, rfl⟩ rfl) rfl rfl
  have hdates : dateTimes.DateAt initialled [.item] false :=
    .item ⟨rfl, rfl, rfl⟩ rfl rfl hdate
  have hinside : dated.DateAt initialled [.property "at", .item] false :=
    .property (isOpen_of_untyped ⟨rfl, rfl, rfl⟩ rfl) rfl rfl List.mem_cons_self hdates
  have hconverts : Options.ConvertsType { types := ["I"] } initialled "I" :=
    ⟨.requested List.mem_cons_self, dated, _, _, rfl, hinside, List.cons_ne_nil _ _⟩
  obtain ⟨typeNames, _, htypes, hfunctions⟩ := hmade.typeFunctions
  obtain ⟨f, hf, own, hneeds, rfl⟩ := exists_of_mem_left hfunctions ((htypes "I").2 hconverts)
  have hparam : parameterName "I" = "i" := by decide +kernel
  refine ⟨output, _, hrun, List.mem_append_left _ hf, ?_, ?_⟩
  · rw [← hparam]
    exact List.mem_cons_self
  · obtain ⟨schema, hschema, htranslates, hknows⟩ := hmade.faithful.component hneeds.plan?
    cases hschema
    have hpart : dated.Part ([.property "at"] ++ [.item]) .dateTime :=
      inside_dated.part (inside_dateTimes.part .here)
    refine renders_functionOfType.mem_loopsAll.2 ((hmade.faithful.loops_iff htranslates hknows).2 ?_)
    exact ⟨[.property "at"], .item, .dateTime, hpart, ⟨[], false, hdate⟩, rfl⟩

end DateReviver
