import DateReviver.Proofs.Emission.Agreement
import DateReviver.Proofs.Output
import DateReviver.Proofs.Planning.Repetition
import DateReviver.Proofs.Rearrangement

/-!
# The order of requests

What is known of a type, and what is written for it, does not depend on how a session came to the
type: on what was asked for before it, in which order, or what was asked in between. So the order in
which types are requested decides about the order of what is generated, and about nothing else.
-/

namespace DateReviver

open DateReviver.OpenApi DateReviver.TypeScript Generation Registry

/-! ## Sessions without failures -/

/-- A call registers no other schema for a type than its component. -/
def Call.Proper (doc : Document) : Call → Prop
  | .register typeName schema => doc.schema? typeName = some schema
  | _ => True

/-- The registries that sessions leave in which every call is proper and succeeds. -/
inductive Registry.Succeeded (doc : Document) : Registry → Prop
  | empty : Succeeded doc .empty
  | call {r r' : Registry} {call : Call} (h : Succeeded doc r) (hproper : call.Proper doc)
      (hrun : (call.step doc).run r = (.ok (), r')) : Succeeded doc r'

theorem run_discard_ok {α : Type} {x : Generation α} {r r' : Registry}
    (hrun : (discard x).run r = (.ok (), r')) : ∃ a, x.run r = (.ok a, r') := by
  rw [run_discard] at hrun
  rcases hx : x.run r with ⟨e | a, after⟩
  · rw [hx] at hrun
    cases hrun
  · rw [hx] at hrun
    cases hrun
    exact ⟨a, rfl⟩

section Sessions

variable {doc : Document} {r r' : Registry}

theorem Call.faithful {call : Call} (h : r.Faithful doc) (hproper : call.Proper doc)
    (hrun : (call.step doc).run r = (.ok (), r')) : r'.Faithful doc := by
  by_cases hplanning : call.IsPlanning
  · cases hplanning with
    | register => exact register_ok h hproper hrun
    | plan =>
        obtain ⟨plan, hplan⟩ := run_discard_ok hrun
        exact plan_faithful h hplan
    | planOperations =>
        obtain ⟨operations, hoperations⟩ := run_discard_ok hrun
        exact (planEndpoints_answers (fun _ hmem => hmem) hoperations).1 h
  · have hconsulted : r.Consulted ((call.step doc).run r).2 := Call.step_consults hplanning r
    rw [hrun] at hconsulted
    exact h.of_methods (hconsulted.sound h.sound) hconsulted.methods

theorem Registry.Succeeded.faithful (h : r.Succeeded doc) : r.Faithful doc := by
  induction h with
  | empty => exact faithful_empty
  | call _ hproper hrun ih => exact Call.faithful ih hproper hrun

/-- A type has one plan only that is the translation of its component. -/
theorem Registry.Faithful.agrees (h : r.Faithful doc) (h' : r'.Faithful doc) : r.Agrees r' := by
  refine ⟨h.sound.knows, h'.sound.knows, fun typeName hmem hmem' => ?_⟩
  obtain ⟨schema, plan, hschema, hplan, htranslates⟩ := h.mirrors typeName hmem
  obtain ⟨found, own, hfound, hown, htranslated⟩ := h'.mirrors typeName hmem'
  rw [Component, hschema, Option.some_inj] at hfound
  subst hfound
  rw [hplan, hown, htranslates.unique htranslated]

end Sessions

/-! ## What both sessions answer -/

namespace Registry

/-- A step has a result in both registries, and the same. -/
def Concur {α : Type} (r r' : Registry) (x : Generation α) : Prop :=
  ∃ a, (x.run r).1 = .ok a ∧ (x.run r').1 = .ok a

/-- Two registries know the same of a type, and the same is written for it. -/
structure Alike (r r' : Registry) (typeName : String) : Prop where
  plan? : ∃ plan, r.plan? typeName = some plan ∧ r'.plan? typeName = some plan
  dateAlias? : r'.dateAlias? typeName = r.dateAlias? typeName
  isTypeEmpty : r.Concur r' (Generation.isTypeEmpty typeName)
  typeFunction : ∀ policy, r.Concur r' (DateReviver.typeFunction policy typeName)
  callSite : ∀ policy value, r.Concur r' (DateReviver.callSite policy typeName value)

variable {r r' : Registry} {typeName : String}

/-- Where every type has its plan, a step answers from the registry as it is. -/
theorem Answers.now {α : Type} {x : Generation α} (h : r.Answers x) (hsound : r.Sound) :
    ∃ a after, x.run r = (.ok a, after) := by
  obtain ⟨a, after, hrun, _⟩ := h r (.refl hsound)
  exact ⟨a, after, hrun⟩

theorem Faithful.alike {doc : Document} (h : r.Faithful doc) (h' : r'.Faithful doc)
    (hmem : typeName ∈ r.typeNames) (hmem' : typeName ∈ r'.typeNames) : r.Alike r' typeName := by
  have hagrees := h.agrees h'
  have hcurrent : r.Current r := .refl h.sound
  have hcurrent' : r'.Current r' := .refl h'.sound
  obtain ⟨schema, plan, _, hplan, _⟩ := h.mirrors typeName hmem
  have hplan' := (hagrees.plan? typeName hmem hmem').trans hplan
  refine ⟨⟨plan, hplan, hplan'⟩, hagrees.dateAlias?_eq hmem hmem', ?_, fun policy => ?_,
    fun policy value => ?_⟩
  · obtain ⟨empty, after, hrun⟩ := (h.allPlanned.isTypeEmpty hmem).now h.sound
    obtain ⟨empty', after', hrun'⟩ := (h'.allPlanned.isTypeEmpty hmem').now h'.sound
    obtain ⟨own, hown, hempty⟩ := hcurrent.isTypeEmpty hrun
    obtain ⟨own', hown', hempty'⟩ := hcurrent'.isTypeEmpty hrun'
    rw [hplan, Option.some_inj] at hown
    rw [hplan', Option.some_inj] at hown'
    subst hown hown'
    rw [hagrees.holdsDate_iff (h.sound.knows _ _ hplan) (h'.sound.knows _ _ hplan'), ← hempty]
      at hempty'
    have hsame : empty' = empty := by
      cases empty <;> cases empty' <;> simp_all
    exact ⟨empty, by rw [hrun], by rw [hrun', hsame]⟩
  · obtain ⟨own, after, hrun⟩ := (h.allPlanned.typeFunction h.sound policy hmem).now h.sound
    obtain ⟨own', after', hrun'⟩ := (h'.allPlanned.typeFunction h'.sound policy hmem').now h'.sound
    have hsame : own' = own := by
      rw [typeFunction_eq hcurrent hrun, typeFunction_eq hcurrent' hrun']
      exact hagrees.typeFunction?_eq hmem hmem'
    exact ⟨own, by rw [hrun], by rw [hrun', hsame]⟩
  · obtain ⟨own, after, hrun⟩ := (h.allPlanned.callSite policy typeName value).now h.sound
    obtain ⟨own', after', hrun'⟩ := (h'.allPlanned.callSite policy typeName value).now h'.sound
    have hsame : own' = own := by
      rw [callSite_statements hcurrent hmem hrun, callSite_statements hcurrent' hmem' hrun',
        hagrees.statements_eq (.delegate hmem) (.delegate hmem')]
    exact ⟨own, by rw [hrun], by rw [hrun', hsame]⟩

end Registry

/-! ## Requests in another order -/

/-- The same request with its types in another order, of the same document with its components in
another order. -/
structure Permuted (options options' : Options) (doc doc' : Document) : Prop where
  others : options' = { options with types := options'.types }
  types : options'.types.Perm options.types
  paths : doc'.paths = doc.paths
  components : doc'.schemas.entries.Perm doc.schemas.entries

/-- The same functions for types and the same calls in some order, and the same functions for
operations. -/
structure Output.Permuted (output output' : Output) : Prop where
  typeFunctions : output'.typeFunctions.Perm output.typeFunctions
  operationFunctions : output'.operationFunctions = output.operationFunctions
  callSites : output'.callSites.Perm output.callSites

/-- The options that ask for the same types by name. -/
def Options.named (options : Options) (doc : Document) : Options :=
  { options with types := options.requested doc, allTypes := false }

/-- Options that ask one document for the same in another order. -/
structure Options.Reorders (doc : Document) (options options' : Options) : Prop where
  requested : (options'.requested doc).Perm (options.requested doc)
  includeOperations : options'.includeOperations = options.includeOperations
  policy : options'.policy = options.policy

section Requests

variable {options options' : Options} {doc doc' : Document}

theorem generate_named : generate options doc = generate (options.named doc) doc := by
  have hrequested : (options.named doc).requested doc = options.requested doc := rfl
  unfold generate generation
  rw [hrequested]
  rfl

theorem Permuted.symm (h : Permuted options options' doc doc') :
    Permuted options' options doc' doc := by
  refine ⟨?_, h.types.symm, h.paths.symm, h.components.symm⟩
  rw [h.others]

theorem Permuted.requested (h : Permuted options options' doc doc') :
    (options'.requested doc').Perm (options.requested doc) := by
  have hall : options'.allTypes = options.allTypes := by rw [h.others]
  unfold Options.requested
  rw [hall]
  split
  · exact h.components.map Prod.fst
  · exact h.types

/-- The document with its components in another order generates the same for types asked for by
name. -/
theorem Permuted.generate_eq (h : Permuted options options' doc doc') :
    generate options' doc' = generate (options'.named doc') doc := by
  have hpaths : doc.PathsRearranged doc' := by
    refine ⟨doc.paths.entries, .refl _, ?_⟩
    rw [h.paths, List.forall₂_same]
    refine fun entry _ => ⟨rfl, fun method => ?_⟩
    cases entry.2.operation? method with
    | none => exact .none
    | some operation => exact .some ⟨rfl, .refl _⟩
  have hrearranged : doc.Rearranged (options'.named doc') doc' :=
    ⟨hpaths, fun _ name _ _ => OrderedMap.get?_of_perm h.components name⟩
  rw [generate_named]
  exact congrArg Prod.fst (generation_eq_of_rearranged rfl hrearranged)

theorem Permuted.reorders (h : Permuted options options' doc doc') :
    (options.named doc).Reorders doc (options'.named doc') := by
  refine ⟨h.requested, ?_, ?_⟩
  · rw [h.others]
    rfl
  · rw [h.others]
    rfl

namespace Options.Reorders

theorem operations (h : options.Reorders doc options') :
    options'.operations doc = options.operations doc := by
  rw [Options.operations, Options.operations, h.includeOperations]

theorem involves (h : options.Reorders doc options') {typeName : String}
    (hinvolves : options'.Involves doc typeName) : options.Involves doc typeName := by
  induction hinvolves with
  | requested hmem => exact .requested (h.requested.mem_iff.1 hmem)
  | response hmem hoffer hrefers =>
      rw [h.operations] at hmem
      exact .response hmem hoffer hrefers
  | component _ hschema hrefers ih => exact .component ih hschema hrefers

theorem symm (h : options.Reorders doc options') : options'.Reorders doc options :=
  ⟨h.requested.symm, h.includeOperations.symm, h.policy.symm⟩

/-- If everything can be planned in one order, it can be planned in the other, and the operations are
planned the same. -/
theorem planning (h : options.Reorders doc options') {output : Output} {r : Registry}
    {operations : List OperationPlan} (hmade : output.MadeFrom options doc r operations)
    (hrun : (planning options doc).run .empty = (.ok operations, r)) :
    ∃ r', (DateReviver.planning options' doc).run .empty = (.ok operations, r') := by
  obtain ⟨_, middle, htypes, hoperations⟩ := run_bind_ok hrun
  have hmiddle := registerTypes_ok faithful_empty htypes
  have hnames : ∀ typeName ∈ options'.requested doc, typeName ∈ r.typeNames := fun typeName hmem =>
    (hmade.registered typeName).2 (.requested (h.requested.mem_iff.1 hmem))
  have hreturns : Returns (DateReviver.planning options' doc) operations := by
    refine (registerTypes_returns hmade.faithful hnames).bind ?_
    rw [h.includeOperations]
    split at hoperations
    · rename_i hinclude
      rw [if_pos hinclude]
      exact planEndpoints_returns hmiddle hoperations
    · rename_i hleave
      rw [if_neg hleave]
      cases hoperations
      exact .pure []
  exact ⟨_, Prod.ext (hreturns .empty) rfl⟩

/-- Both orders yield the same, but for the order. -/
theorem permuted (h : options.Reorders doc options') {output output' : Output} {r r' : Registry}
    {operations : List OperationPlan} (hmade : output.MadeFrom options doc r operations)
    (hmade' : output'.MadeFrom options' doc r' operations) : output.Permuted output' := by
  have hagrees := hmade.faithful.agrees hmade'.faithful
  have hsame : ∀ typeName, typeName ∈ r'.typeNames ↔ typeName ∈ r.typeNames := fun typeName => by
    rw [hmade.registered, hmade'.registered]
    exact ⟨h.involves, h.symm.involves⟩
  have htypes : r'.typeNames.Perm r.typeNames :=
    (List.perm_ext_iff_of_nodup r'.methods.nodup r.methods.nodup).2 hsame
  constructor
  · rw [hmade.written.typeFunctions, hmade'.written.typeFunctions, h.policy]
    have hfunctions : r'.typeNames.filterMap (r'.typeFunction? options.policy) =
        r'.typeNames.filterMap (r.typeFunction? options.policy) :=
      List.filterMap_congr fun typeName hmem =>
        hagrees.typeFunction?_eq ((hsame typeName).1 hmem) hmem
    rw [hfunctions]
    exact htypes.filterMap _
  · rw [hmade.written.operationFunctions, hmade'.written.operationFunctions, h.policy]
    refine List.filterMap_congr fun operation hmem => ?_
    obtain ⟨_, _, hconverts⟩ := exists_of_mem_right hmade.converts hmem
    obtain ⟨_, _, hconverts'⟩ := exists_of_mem_right hmade'.converts hmem
    exact hagrees.operationFunction?_eq hconverts.knows hconverts'.knows
  · rw [hmade.calls, hmade'.calls, h.policy]
    have hcalls : ((options'.requested doc).filterMap fun typeName =>
          (r'.callSite? options.policy typeName).map (CallSite.mk typeName)) =
        (options'.requested doc).filterMap fun typeName =>
          (r.callSite? options.policy typeName).map (CallSite.mk typeName) := by
      refine List.filterMap_congr fun typeName hmem => ?_
      have hmem' := (hmade'.registered typeName).2 (.requested hmem)
      rw [callSite?, callSite?,
        hagrees.statements_eq (.delegate ((hsame typeName).1 hmem')) (.delegate hmem')]
    rw [hcalls]
    exact h.requested.filterMap _

theorem generate (h : options.Reorders doc options') {output : Output}
    (hrun : DateReviver.generate options doc = .ok output) :
    ∃ output', DateReviver.generate options' doc = .ok output' ∧ output.Permuted output' := by
  obtain ⟨operations, r, hplanning⟩ := generate_ok_iff.1 ⟨output, hrun⟩
  have hmade := madeFrom_of_planning hplanning hrun
  obtain ⟨r', hplanning'⟩ := h.planning hmade hplanning
  obtain ⟨output', hrun'⟩ := generate_ok_iff.2 ⟨operations, r', hplanning'⟩
  exact ⟨output', hrun', h.permuted hmade (madeFrom_of_planning hplanning' hrun')⟩

end Options.Reorders

theorem Permuted.generate (h : Permuted options options' doc doc') {output : Output}
    (hrun : DateReviver.generate options doc = .ok output) :
    ∃ output', DateReviver.generate options' doc' = .ok output' ∧ output.Permuted output' := by
  rw [h.generate_eq]
  rw [generate_named] at hrun
  exact h.reorders.generate hrun

end Requests

/-- The order of requests does not matter. Any two sessions on a document in which every call succeeds
have the same plan for a type that both have come to, the same answers about it, and the same function
and calls. Requesting the types in another order, or all types of a document with its components in
another order, succeeds as well, and puts the functions for types and the calls in another order. -/
theorem requests_confluent (doc : Document) :
    (∀ r r' : Registry, r.Succeeded doc → r'.Succeeded doc →
      ∀ typeName, typeName ∈ r.typeNames → typeName ∈ r'.typeNames → r.Alike r' typeName) ∧
    ∀ (options options' : Options) (doc' : Document), Permuted options options' doc doc' →
      ((∃ output, generate options doc = .ok output) ↔
        ∃ output', generate options' doc' = .ok output') ∧
      ∀ output output', generate options doc = .ok output → generate options' doc' = .ok output' →
        output.Permuted output' := by
  constructor
  · intro r r' h h' typeName hmem hmem'
    exact h.faithful.alike h'.faithful hmem hmem'
  · intro options options' doc' h
    refine ⟨⟨?_, ?_⟩, ?_⟩
    · rintro ⟨output, hrun⟩
      obtain ⟨output', hrun', _⟩ := h.generate hrun
      exact ⟨output', hrun'⟩
    · rintro ⟨output', hrun'⟩
      obtain ⟨output, hrun, _⟩ := h.symm.generate hrun'
      exact ⟨output, hrun⟩
    · intro output output' hrun hrun'
      obtain ⟨found, hfound, hpermuted⟩ := h.generate hrun
      rw [hrun', Except.ok.injEq] at hfound
      rw [hfound]
      exact hpermuted

end DateReviver
