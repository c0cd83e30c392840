import DateReviver.Proofs.Generate
import DateReviver.Proofs.Planning.Tidiness

/-!
# Generated functions convert exactly the dates

The functions that a generation writes make a module that carries out the plans. So the function of
an operation returns its response with a date wherever a path from the plan leads to one, and with
everything else as it was, unless null reaches a function that reads properties at once. Where no
nullable object is the plan of a type or of an operation, that never happens.

A property may be missing where not all are to be there. Under a name that every object inherits,
though, something is read all the same, and a date is made of it where the property is one.
-/

namespace DateReviver

open DateReviver.OpenApi DateReviver.TypeScript Generation

/-! ## The module -/

theorem find?_of_nodup {m : Module} {f : Function} (hnodup : (m.map Function.name).Nodup)
    (hf : f ∈ m) : (m.find? fun g => g.name == f.name) = some f := by
  obtain ⟨before, after, rfl⟩ := List.append_of_mem hf
  rw [List.find?_eq_some_iff_append]
  refine ⟨beq_self_eq_true _, before, after, rfl, fun g hg => ?_⟩
  rw [List.map_append, List.map_cons, List.nodup_append] at hnodup
  have hne : g.name ≠ f.name := hnodup.2.2 _ (List.mem_map_of_mem hg) _ List.mem_cons_self
  simpa using hne

section Compiled

variable {options : Options} {doc : Document} {r : Registry} {operations : List OperationPlan}
  {output : Output}

theorem Output.WrittenFor.mem_operationFunctions (h : output.WrittenFor options r operations)
    {f : Function} (hf : f ∈ output.operationFunctions) : ∃ operation ∈ operations,
      r.HoldsDate operation.plan ∧ f = r.functionOfOperation options.policy operation := by
  rw [h.operationFunctions, List.mem_filterMap] at hf
  obtain ⟨operation, hmem, hf⟩ := hf
  exact ⟨operation, hmem, Registry.holdsDate_of_operationFunction? hf⟩

theorem Output.WrittenFor.mem_typeFunctions (h : output.WrittenFor options r operations)
    {typeName : String} {plan : Plan} (hneeds : r.NeedsFunction typeName plan) :
    r.functionOfType options.policy typeName plan ∈ output.typeFunctions := by
  rw [h.typeFunctions, List.mem_filterMap]
  exact ⟨typeName, Registry.mem_typeNames_of_plan? hneeds.plan?,
    Registry.typeFunction?_of_needs hneeds⟩

theorem Output.WrittenFor.named (h : output.WrittenFor options r operations) :
    FunctionsNamed output.toModule := by
  intro f hf
  rcases List.mem_append.1 hf with htype | hoperation
  · rw [h.typeFunctions, List.mem_filterMap] at htype
    obtain ⟨typeName, _, hf⟩ := htype
    obtain ⟨plan, _, rfl⟩ := Registry.needs_of_typeFunction? hf
    exact head?_functionName typeName
  · obtain ⟨operation, _, _, rfl⟩ := h.mem_operationFunctions hoperation
    rw [Registry.functionOfOperation, String.append_assoc]
    exact head?_append_transform _

/-- The module of a generation has the functions for the types that it planned. -/
theorem Output.WrittenFor.compiled (h : output.WrittenFor options r operations)
    (hfaithful : r.Faithful doc) (htidy : doc.Tidy) (hnames : NamesApart output.toModule) :
    Compiled output.toModule r options.policy := by
  have hmem {typeName : String} {plan : Plan} (hneeds : r.NeedsFunction typeName plan) :
      r.functionOfType options.policy typeName plan ∈ output.toModule :=
    List.mem_append_left _ (h.mem_typeFunctions hneeds)
  constructor
  · exact h.named
  · intro typeName plan hplan
    obtain ⟨schema, found, hcomponent, hfound, htranslates⟩ :=
      hfaithful.mirrors typeName (Registry.mem_typeNames_of_plan? hplan)
    rw [hplan] at hfound
    cases hfound
    exact htranslates.tidy (htidy.components _ _ hcomponent)
  · exact fun typeName plan hneeds => find?_of_nodup hnames.functions (hmem hneeds)
  · intro typeName plan hneeds
    have hparam := hnames.params _ (hmem hneeds) ⟨parameterName typeName, some (.named typeName)⟩
    exact hparam List.mem_cons_self

end Compiled

/-! ## Where null is read -/

/-- The plan of an object in whose place null may stand. -/
def Plan.IsNullableObject : Plan → Prop
  | .object _ nullable => nullable = true
  | _ => False

/-- A run stumbles only over null in the place of an object, where the object's plan is that of a
type or the one that the run began with. -/
theorem Stumbles.isNullableObject {r : Registry} {missing : String × Plan → Prop} {nested : Bool}
    {plan : Plan} {value : Value} (h : Stumbles r nested plan value)
    (hfits : Fits r missing plan value) :
    (nested = false ∧ plan.IsNullableObject) ∨
      ∃ typeName own, r.plan? typeName = some own ∧ own.IsNullableObject := by
  induction h with
  | object =>
      cases hfits with
      | null hnull => exact .inl ⟨rfl, hnull⟩
  | delegate hplan hcalled _ ih =>
      cases hfits with
      | null hnull =>
          rcases hcalled with hfalse | hne
          · cases hfalse.symm.trans hnull
          · exact absurd rfl hne
      | delegate hplan' hfits =>
          rw [hplan] at hplan'
          cases hplan'
          rcases ih hfits with ⟨_, hobject⟩ | htype
          · exact .inr ⟨_, _, hplan, hobject⟩
          · exact .inr htype
  | item hmem _ ih =>
      cases hfits with
      | array hitems =>
          rcases ih (hitems _ hmem) with ⟨habsurd, _⟩ | htype
          · cases habsurd
          · exact .inr htype
  | entry hmem _ ih =>
      cases hfits with
      | map _ hfields =>
          rcases ih (hfields _ hmem) with ⟨habsurd, _⟩ | htype
          · cases habsurd
          · exact .inr htype
  | property hmem hvalue _ ih =>
      cases hfits with
      | object _ _ hproperties =>
          rcases ih (hproperties _ hmem _ hvalue) with ⟨habsurd, _⟩ | htype
          · cases habsurd
          · exact .inr htype

/-! ## Functions of operations -/

/-- The function of an operation, called on a value that fits the plan, returns the value with dates
at the ends of the paths to dates, or stops where the run stumbles. -/
theorem call_operationFunction {options : Options} {doc : Document} {r : Registry}
    {operations : List OperationPlan} {output : Output} (htidy : doc.Tidy)
    (hplanning : (planning options doc).run .empty = (.ok operations, r))
    (hrun : generate options doc = .ok output) (hnames : NamesApart output.toModule)
    {f : Function} (hf : f ∈ output.operationFunctions) :
    ∃ operation ∈ operations, ∃ endpoint schema, operation.Converts doc r endpoint schema ∧
      f.name = "transform" ++ Text.capitalize operation.name ++ "OperationResponse" ∧
      ∀ value, Fits r (r.MayLack options.requireAllProperties) operation.plan value →
        (¬ Stumbles r false operation.plan value → ∃ after,
          Settles (call output.toModule · f.name value)
            (.ok (after, some (value.revive (r.Dates operation.plan))))) ∧
        (Stumbles r false operation.plan value →
          Settles (call output.toModule · f.name value) (.error .nothingRead)) := by
  obtain ⟨hfaithful, hall⟩ := planning_ok hplanning
  have hwritten := writtenFor_of_generate hplanning hrun
  obtain ⟨operation, hmem, _, hfunction⟩ := hwritten.mem_operationFunctions hf
  obtain ⟨endpoint, schema, hconverts⟩ := hall operation hmem
  have hmodule : f ∈ output.toModule := List.mem_append_right _ hf
  have hparam : ParamApart output.toModule "response" := by
    refine hnames.params f hmodule ⟨"response", some operation.responseType⟩ ?_
    rw [hfunction]
    exact List.mem_cons_self
  refine ⟨operation, hmem, endpoint, schema, hconverts, by rw [hfunction]; rfl, ?_⟩
  intro value hfits
  exact Fits.call_operation (hwritten.compiled hfaithful htidy hnames) hfunction
    (find?_of_nodup hnames.functions hmodule) hparam
    (hconverts.translates.tidy (htidy.responses _ hconverts.mem _ hconverts.response)) hfits

/-- Where no nullable object is the plan of a type or of an operation, the function of an operation
returns every value that fits the plan, with dates exactly at the ends of the paths to dates. A
property that is missing from the value is read as `undefined`, or not at all. -/
theorem operationFunction_converts {options : Options} {doc : Document} {r : Registry}
    {operations : List OperationPlan} {output : Output} (htidy : doc.Tidy)
    (hplanning : (planning options doc).run .empty = (.ok operations, r))
    (hrun : generate options doc = .ok output) (hnames : NamesApart output.toModule)
    (htypes : ∀ typeName plan, r.plan? typeName = some plan → ¬ plan.IsNullableObject)
    (hoperations : ∀ operation ∈ operations, ¬ operation.plan.IsNullableObject) {f : Function}
    (hf : f ∈ output.operationFunctions) :
    ∃ operation ∈ operations, ∃ endpoint schema, operation.Converts doc r endpoint schema ∧
      f.name = "transform" ++ Text.capitalize operation.name ++ "OperationResponse" ∧
      ∀ value, Fits r (r.MayLack options.requireAllProperties) operation.plan value →
        ∃ after, Settles (call output.toModule · f.name value)
          (.ok (after, some (value.revive (r.Dates operation.plan)))) := by
  obtain ⟨operation, hmem, endpoint, schema, hconverts, hname, hcall⟩ :=
    call_operationFunction htidy hplanning hrun hnames hf
  refine ⟨operation, hmem, endpoint, schema, hconverts, hname, fun value hfits => ?_⟩
  refine (hcall value hfits).1 fun hstumbles => ?_
  rcases hstumbles.isNullableObject hfits with ⟨_, hobject⟩ | ⟨typeName, own, hplan, hobject⟩
  · exact hoperations operation hmem hobject
  · exact htypes typeName own hplan hobject

/-! ## A list without end -/

/-- The operation with the latest entry, as it is planned. -/
def latestPlan : OperationPlan :=
  ⟨"latestEntry", "/entries", .get, .named "Entry", .delegate "Entry" false⟩

/-- What planning leaves for the document of entries. -/
def chainedRegistry (nullable : Bool) : Registry :=
  (Registry.empty.register [("Entry", some (chainedPlan nullable))]).record
    (.operationPlanned "latestEntry" "/entries")

section Chained

variable (nullable : Bool)

theorem endpoints_chained :
    endpoints (chained nullable) = [⟨"/entries", .get, latestEntry⟩] := by
  have hpaths : (chained nullable).paths.entries
      = [("/entries", ⟨some latestEntry, none, none, none, none⟩)] := rfl
  simp [endpoints, hpaths, HttpMethod.all, PathItem.operation?]

theorem successSchema_latestEntry : successSchema latestEntry = .ok (some (.referring "Entry")) :=
  rfl

theorem responseType_referring : responseType (.referring "Entry") = .named "Entry" := by
  have hname : referencedName? (componentRoot ++ "Entry") = some "Entry" := by decide +kernel
  simp [responseType, Schema.referring, hname]

theorem planning_chained :
    (planning {} (chained nullable)).run .empty = (.ok [latestPlan], chainedRegistry nullable) := by
  have hname : operationName "/entries" .get latestEntry = "latestEntry" := by decide +kernel
  simp [planning, Options.requested, registerTypes, planOperations, endpoints_chained,
    planEndpoints, hname, successSchema_latestEntry, responseType_referring, run_bind, run_ofExcept,
    plan_chained, latestPlan]
  rfl

theorem tidy_referring (name : String) : (Schema.referring name).Tidy := by
  constructor <;> simp [Keywords.bare]

/-- The operation converts its response by the translation of its schema. -/
theorem converts_chained : (chainedRegistry nullable).Faithful (chained nullable) ∧
    latestPlan.Converts (chained nullable) (chainedRegistry nullable)
      ⟨"/entries", .get, latestEntry⟩ (.referring "Entry") := by
  obtain ⟨hfaithful, hall⟩ := planning_ok (planning_chained nullable)
  obtain ⟨endpoint, schema, hconverts⟩ := hall latestPlan List.mem_cons_self
  have hmem := hconverts.mem
  have hresponse := hconverts.response
  rw [endpoints_chained, List.mem_singleton] at hmem
  subst hmem
  rw [successSchema_latestEntry] at hresponse
  cases hresponse
  exact ⟨hfaithful, hconverts⟩

theorem tidy_dateTime : Schema.dateTime.Tidy := by
  constructor <;> simp [Keywords.bare]

theorem tidy_chainedEntry : (chainedEntry nullable).Tidy := by
  have hnothing : Schema.nothing.Tidy := by constructor <;> simp [Keywords.bare]
  have hlink : chainedLink.Tidy := by
    constructor <;> simp [Keywords.bare, hnothing, tidy_referring]
  constructor <;> simp [Keywords.bare]
  rintro _ _ (⟨_, rfl⟩ | ⟨_, rfl⟩)
  · exact hlink
  · exact tidy_dateTime

/-- There is only one component. -/
theorem eq_of_schema?_chained {name : String} {schema : Schema}
    (h : (chained nullable).schema? name = some schema) :
    name = "Entry" ∧ schema = chainedEntry nullable := by
  have hlookup : (chained nullable).schema? name
      = [("Entry", chainedEntry nullable)].lookup name := rfl
  rw [hlookup, List.lookup_cons] at h
  split at h
  · rename_i heq
    exact ⟨beq_iff_eq.1 heq, (Option.some_inj.1 h).symm⟩
  · cases h

theorem tidy_chained : (chained nullable).Tidy := by
  constructor
  · intro name schema hschema
    obtain ⟨_, rfl⟩ := eq_of_schema?_chained nullable hschema
    exact tidy_chainedEntry nullable
  · rw [endpoints_chained]
    intro endpoint hmem schema hschema
    rw [List.mem_singleton] at hmem
    subst hmem
    rw [successSchema_latestEntry] at hschema
    cases hschema
    exact tidy_referring _

theorem needsFunction_chained :
    (chainedRegistry nullable).NeedsFunction "Entry" (chainedPlan nullable) := by
  refine ⟨rfl, ?_, rfl⟩
  exact Registry.holdsDate_object_iff.2 ⟨("at", .date false), by simp, Registry.holdsDate_date⟩

theorem operationFunctions_chained {output : Output}
    (hrun : generate {} (chained nullable) = .ok output) : output.operationFunctions
      = [(chainedRegistry nullable).functionOfOperation ⟨false⟩ latestPlan] := by
  have hneeds := needsFunction_chained nullable
  have hdate : (chainedRegistry nullable).HoldsDate latestPlan.plan :=
    (Registry.holdsDate_delegate_iff hneeds.plan?).2 hneeds.holdsDate
  exact (writtenFor_of_generate (planning_chained nullable) hrun).operationFunctions.trans
    (List.filterMap_cons_some (if_pos hdate))

theorem functionOfOperation_mem_chained {output : Output}
    (hrun : generate {} (chained nullable) = .ok output) :
    (chainedRegistry nullable).functionOfOperation ⟨false⟩ latestPlan
      ∈ output.operationFunctions := by
  rw [operationFunctions_chained nullable hrun]
  exact List.mem_singleton_self _

theorem toModule_chained {output : Output} (hrun : generate {} (chained nullable) = .ok output) :
    output.toModule
      = [(chainedRegistry nullable).functionOfType ⟨false⟩ "Entry" (chainedPlan nullable),
        (chainedRegistry nullable).functionOfOperation ⟨false⟩ latestPlan] := by
  have htypes : output.typeFunctions
      = [(chainedRegistry nullable).functionOfType ⟨false⟩ "Entry" (chainedPlan nullable)] :=
    (writtenFor_of_generate (planning_chained nullable) hrun).typeFunctions.trans
      (List.filterMap_cons_some (Registry.typeFunction?_of_needs (needsFunction_chained nullable)))
  rw [Output.toModule, htypes, operationFunctions_chained nullable hrun]
  rfl

theorem namesApart_chained {output : Output} (hrun : generate {} (chained nullable) = .ok output) :
    NamesApart output.toModule := by
  have hnamed := (writtenFor_of_generate (planning_chained nullable) hrun).named
  have hmodule := toModule_chained nullable hrun
  constructor
  · have hnames : [functionName "Entry", "transform" ++ Text.capitalize "latestEntry"
        ++ "OperationResponse"].Nodup := by decide +kernel
    rw [hmodule]
    exact hnames
  · intro f hf param hparam
    rw [hmodule] at hf
    have hentry : parameterName "Entry" = "entry" := by decide +kernel
    have hname : param.name = "entry" ∨ param.name = "response" := by
      rcases List.mem_pair.1 hf with rfl | rfl
      · rw [List.mem_singleton.1 hparam, hentry]
        exact .inl rfl
      · rw [List.mem_singleton.1 hparam]
        exact .inr rfl
    rcases hname with hname | hname
    · rw [hname]
      exact .of_head? hnamed rfl (by decide)
    · rw [hname]
      exact .of_head? hnamed rfl (by decide)

end Chained

/-- Two entries, with some value at each date. -/
def twoEntries (at_ : String → Value) : Value :=
  .object [("next", .object [("next", .null), ("at", at_ "1999-12-31T23:59:59Z")]),
    ("at", at_ "2000-01-01T00:00:00Z")]

section Entries

variable {nullable : Bool} {missing : String × Plan → Prop}

theorem fits_entry {next : Value} {source : String}
    (h : Fits (chainedRegistry nullable) missing (.delegate "Entry" true) next) :
    Fits (chainedRegistry nullable) missing (chainedPlan nullable)
      (.object [("next", next), ("at", .text source)]) := by
  refine .object (by simp) (by simp) ?_
  rintro _ hmem value hvalue
  simp at hmem
  rcases hmem with rfl | rfl
  · cases hvalue
    exact h
  · cases hvalue
    exact .date

theorem revive_entry {next : Value} {source : String} :
    (Value.object [("next", next), ("at", .text source)]).revive
        ((chainedRegistry nullable).Dates (chainedPlan nullable))
      = .object [("next", next.revive ((chainedRegistry nullable).Dates (.delegate "Entry" true))),
        ("at", .date (.text source))] := by
  rw [chainedPlan, Value.revive_object]
  rw [List.map_cons, List.map_cons, List.map_nil, datesUnder_head (by simp),
    datesUnder_tail (by simp), datesUnder_head (by simp)]
  rw [Value.revive_text fun _ => Registry.dates_date]

end Entries

/-- Both dates are converted, and the link that is null stays null. -/
theorem operationFunction_converts_chained : ∃ output f after,
    generate {} (chained false) = .ok output ∧ f ∈ output.operationFunctions ∧
      Settles (call output.toModule · f.name (twoEntries .text))
        (.ok (after, some (twoEntries fun source => .date (.text source)))) := by
  obtain ⟨output, hrun⟩ := generate_ok_iff.2 ⟨_, _, planning_chained false⟩
  have hplan := (needsFunction_chained false).plan?
  have hf := functionOfOperation_mem_chained false hrun
  have htypes : ∀ typeName plan, (chainedRegistry false).plan? typeName = some plan →
      ¬ plan.IsNullableObject := by
    intro typeName plan hfound
    have hlookup : (chainedRegistry false).plan? typeName
        = ([("Entry", some (chainedPlan false))].lookup typeName).join := rfl
    rw [hlookup, List.lookup_cons] at hfound
    split at hfound
    · cases hfound
      exact Bool.false_ne_true
    · cases hfound
  have hoperations : ∀ operation ∈ [latestPlan], ¬ operation.plan.IsNullableObject := by
    intro operation hmem
    rw [List.mem_singleton.1 hmem]
    exact id
  obtain ⟨operation, hmem, _, _, _, _, hcall⟩ := operationFunction_converts (tidy_chained false)
    (planning_chained false) hrun (namesApart_chained false hrun) htypes hoperations hf
  rw [List.mem_singleton.1 hmem] at hcall
  have hfits : Fits (chainedRegistry false) ((chainedRegistry false).MayLack false)
      latestPlan.plan (twoEntries .text) :=
    .delegate hplan (fits_entry (.delegate hplan (fits_entry (.null rfl))))
  obtain ⟨after, hsettles⟩ := hcall _ hfits
  refine ⟨output, _, after, hrun, hf, ?_⟩
  have hrevive : (twoEntries .text).revive ((chainedRegistry false).Dates latestPlan.plan)
      = twoEntries fun source => .date (.text source) := by
    rw [latestPlan, Registry.dates_delegate hplan, twoEntries, revive_entry,
      Registry.dates_delegate hplan, revive_entry, Value.revive_null]
    rfl
  rw [hrevive] at hsettles
  exact hsettles

/-! ## A property that every object inherits -/

/-- An object with a date-time string under one name, which may be missing. -/
def datedAt (name : String) : Schema :=
  .object { Keywords.bare with properties := some [(name, .dateTime)] }

/-- The operation that answers with such an object. -/
def latestRecord (name : String) : Operation :=
  ⟨some "latestRecord", .ofList [("200", ⟨none, some (.ofList
    [("application/json", ⟨some (datedAt name)⟩)])⟩)]⟩

def recorded (name : String) : Document :=
  ⟨.ofList [("/records", ⟨some (latestRecord name), none, none, none, none⟩)], none⟩

/-- The operation as it is planned. -/
def recordPlan (name : String) : OperationPlan :=
  ⟨"latestRecord", "/records", .get, .any, .object [(name, .date false)] false⟩

/-- Planning finds no types in the document. -/
def recordedRegistry : Registry :=
  Registry.empty.record (.operationPlanned "latestRecord" "/records")

section Recorded

variable (name : String)

theorem endpoints_recorded :
    endpoints (recorded name) = [⟨"/records", .get, latestRecord name⟩] := by
  have hpaths : (recorded name).paths.entries
      = [("/records", ⟨some (latestRecord name), none, none, none, none⟩)] := rfl
  simp [endpoints, hpaths, HttpMethod.all, PathItem.operation?]

theorem successSchema_latestRecord :
    successSchema (latestRecord name) = .ok (some (datedAt name)) := by
  have hjson : isJsonMediaType "application/json" = true := by decide +kernel
  have hresponse : (latestRecord name).responses.get? "200"
      = some ⟨none, some (.ofList [("application/json", ⟨some (datedAt name)⟩)])⟩ := rfl
  have hcontent : (OrderedMap.ofList [("application/json",
      (⟨some (datedAt name)⟩ : MediaType))]).entries
        = [("application/json", ⟨some (datedAt name)⟩)] := rfl
  simp [successSchema, successStatuses, successSchemaAmong, hresponse, hcontent, jsonSchema?, hjson]

theorem planSchema_datedAt : planSchema (recorded name) [] (datedAt name)
    = .done (.object [(name, .date false)] false) := by
  simp [planSchema_object, planProperties, datedAt, Schema.dateTime, Keywords.bare,
    Keywords.isNullable, Keywords.unwrapNullable, Keywords.primaryType, Keywords.isObject,
    Keywords.mapValues, Planned.done, Planned.map, Except.map, Planned.names]

theorem plan_recorded : (Generation.plan (recorded name) (datedAt name)).run .empty
    = (.ok (.object [(name, .date false)] false), .empty) := by
  have hnames : Registry.empty.typeNames = [] := rfl
  unfold Generation.plan
  rw [Generation.run_absorb, hnames, planSchema_datedAt]
  rfl

theorem planning_recorded :
    (planning {} (recorded name)).run .empty = (.ok [recordPlan name], recordedRegistry) := by
  have hname : operationName "/records" .get (latestRecord name) = "latestRecord" := by
    show identifier "latestRecord" = "latestRecord"
    decide +kernel
  have htype : responseType (datedAt name) = .any := rfl
  simp [planning, Options.requested, registerTypes, planOperations, endpoints_recorded,
    planEndpoints, hname, successSchema_latestRecord, htype, run_bind, run_ofExcept,
    plan_recorded, recordPlan]
  rfl

theorem tidy_recorded : (recorded name).Tidy := by
  constructor
  · intro component schema hschema
    cases hschema
  · rw [endpoints_recorded]
    intro endpoint hmem schema hschema
    rw [List.mem_singleton] at hmem
    subst hmem
    rw [successSchema_latestRecord] at hschema
    cases hschema
    constructor <;> simp [Keywords.bare, tidy_dateTime]

/-- The only function is that of the operation. -/
theorem toModule_recorded {output : Output} (hrun : generate {} (recorded name) = .ok output) :
    output.operationFunctions = [recordedRegistry.functionOfOperation ⟨false⟩ (recordPlan name)] ∧
      output.toModule = output.operationFunctions := by
  have hwritten := writtenFor_of_generate (planning_recorded name) hrun
  have hdate : recordedRegistry.HoldsDate (recordPlan name).plan :=
    Registry.holdsDate_object_iff.2 ⟨(name, .date false), by simp, Registry.holdsDate_date⟩
  have htypes : output.typeFunctions = [] := hwritten.typeFunctions
  refine ⟨hwritten.operationFunctions.trans (List.filterMap_cons_some (if_pos hdate)), ?_⟩
  rw [Output.toModule, htypes, List.nil_append]

theorem namesApart_recorded {output : Output} (hrun : generate {} (recorded name) = .ok output) :
    NamesApart output.toModule := by
  have hnamed := (writtenFor_of_generate (planning_recorded name) hrun).named
  obtain ⟨hfunctions, hmodule⟩ := toModule_recorded name hrun
  constructor
  · rw [hmodule, hfunctions]
    exact List.pairwise_singleton _ _
  · intro f hf param hparam
    rw [hmodule, hfunctions, List.mem_singleton] at hf
    subst hf
    have hname : param.name = "response" := by rw [List.mem_singleton.1 hparam]
    rw [hname]
    exact .of_head? hnamed rfl (by decide)

/-- A response without the property gets a date made of the function that it inherits there. -/
theorem call_latestRecord {output : Output} {name : String} (hname : name ∈ inheritedFunctions)
    (hrun : generate {} (recorded name) = .ok output) {f : Function}
    (hf : f ∈ output.operationFunctions) : ∃ after,
    Settles (call output.toModule · f.name (.object []))
      (.ok (after, some (.object [(name, .date (.inherited name))]))) := by
  have hnames := namesApart_recorded name hrun
  have hnamed := (writtenFor_of_generate (planning_recorded name) hrun).named
  obtain ⟨hfunctions, hmodule⟩ := toModule_recorded name hrun
  have hfunction := find?_of_nodup hnames.functions (hmodule ▸ hf)
  rw [hfunctions, List.mem_singleton] at hf
  subst hf
  have hparam : ParamApart output.toModule "response" := .of_head? hnamed rfl (by decide)
  have hsees : Sees output.toModule 0 ⟨"response", []⟩ := Sees.function hnamed hparam
  have hbody : Ends output.toModule ⟨"response", []⟩ ⟨.object [], none⟩
      (recordedRegistry.statements ⟨false⟩ .root (recordPlan name).plan (.ident "response"))
      (.ok ⟨.object [(name, .date (.inherited name))], none⟩) := by
    rw [recordPlan, Registry.statements_object, if_pos (by simp [Scope.root]),
      Registry.propertyStatements_cons, Registry.propertyStatements_nil, List.append_nil,
      Registry.statements_date]
    exact ends_dateStatements_inherited hsees (denotes_param hparam) rfl hname
  exact ⟨_, settles_functionOfOperation hfunction hsees hbody⟩

end Recorded

/-- The date named `constructor` may be missing from the response, and then there is nothing to
convert. Still the function puts a date there. -/
theorem operationFunction_adds_date : ∃ output f,
    (planning {} (recorded "constructor")).run .empty
        = (.ok [recordPlan "constructor"], recordedRegistry) ∧
      generate {} (recorded "constructor") = .ok output ∧ (recorded "constructor").Tidy ∧
      NamesApart output.toModule ∧
      (∀ typeName plan, recordedRegistry.plan? typeName = some plan → ¬ plan.IsNullableObject) ∧
      ¬ (recordPlan "constructor").plan.IsNullableObject ∧ f ∈ output.operationFunctions ∧
      Fits recordedRegistry (fun _ => True) (recordPlan "constructor").plan (.object []) ∧
      (∃ after, Settles (call output.toModule · f.name (.object []))
        (.ok (after, some (.object [("constructor", .date (.inherited "constructor"))])))) ∧
      ¬ ∃ after, Settles (call output.toModule · f.name (.object []))
        (.ok (after, some ((Value.object []).revive
          (recordedRegistry.Dates (recordPlan "constructor").plan)))) := by
  obtain ⟨output, hrun⟩ := generate_ok_iff.2 ⟨_, _, planning_recorded "constructor"⟩
  have hf : recordedRegistry.functionOfOperation ⟨false⟩ (recordPlan "constructor")
      ∈ output.operationFunctions := by
    rw [(toModule_recorded _ hrun).1]
    exact List.mem_singleton_self _
  obtain ⟨after, hcall⟩ := call_latestRecord (by decide) hrun hf
  refine ⟨output, _, planning_recorded _, hrun, tidy_recorded _, namesApart_recorded _ hrun, ?_,
    Bool.false_ne_true, hf, ?_, ⟨after, hcall⟩, ?_⟩
  · intro typeName plan hplan
    cases hplan
  · exact .object List.nodup_nil (fun _ _ _ => trivial) (by simp)
  · rintro ⟨other, hother⟩
    have hsame := hcall.outcome_eq hother
    rw [Value.revive_fields] at hsame
    simp at hsame

end DateReviver
