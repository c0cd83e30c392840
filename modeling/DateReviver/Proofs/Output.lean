import DateReviver.Proofs.Failure
import DateReviver.Proofs.Need
import DateReviver.Proofs.Planning.Involvement
import Mathlib.Data.List.Nodup

/-!
# What an output consists of

What a generation yields, told by the document and the registry that planning has left: the types
that are registered are those that the options are about, the operations that are planned are those
that answer, and a call is there for each requested type that holds dates.
-/

namespace DateReviver

open DateReviver.OpenApi DateReviver.TypeScript Generation Registry

/-- A type that the options are about and that needs a function. -/
def Options.ConvertsType (options : Options) (doc : Document) (typeName : String) : Prop :=
  options.Involves doc typeName ∧ doc.NeedsFunction typeName

/-- An operation that the options ask for and whose response holds dates. -/
def Options.ConvertsOperation (options : Options) (doc : Document) (endpoint : Endpoint) : Prop :=
  ∃ schema, (endpoint, schema) ∈ options.responses doc ∧ schema.HoldsDate doc

/-! ## Calls for requested types -/

namespace Registry

/-- The call for a requested type, if it needs one. -/
noncomputable def callSite? (r : Registry) (policy : GuardPolicy) (typeName : String) :
    Option Stmt :=
  (r.statements policy .root (.delegate typeName false) (.ident "response")).head?

variable {r : Registry} {policy : GuardPolicy} {typeName : String} {nullable : Bool}

/-- At most one statement carries out a delegation. -/
theorem statements_delegate_cases {scope : Scope} {value : Expr} :
    r.statements policy scope (.delegate typeName nullable) value = [] ∨
      ∃ statement,
        r.statements policy scope (.delegate typeName nullable) value = [statement] := by
  rw [statements_delegate]
  split
  · right
    unfold dateStatements GuardPolicy.guarded
    split <;> exact ⟨_, rfl⟩
  · split
    · exact .inr ⟨_, rfl⟩
    · exact .inl rfl

theorem callSite?_eq_some_iff {statement : Stmt} : r.callSite? policy typeName = some statement ↔
    r.statements policy .root (.delegate typeName false) (.ident "response") = [statement] := by
  have hcases : r.statements policy .root (.delegate typeName false) (.ident "response") = [] ∨
      ∃ statement, r.statements policy .root (.delegate typeName false) (.ident "response")
        = [statement] := statements_delegate_cases
  unfold callSite?
  rcases hcases with hnil | ⟨found, hfound⟩
  · simp [hnil]
  · simp [hfound]

theorem callSite?_eq_none_iff :
    r.callSite? policy typeName = none ↔ ¬ r.HoldsDate (.delegate typeName false) := by
  rw [callSite?, List.head?_eq_none_iff, statements_eq_nil_iff]

end Registry

section CallSites

variable {r now after : Registry} {policy : GuardPolicy}

/-- A call is the only statement that carries out a delegation, if there is one. -/
theorem callSite_statements (h : r.Current now) {typeName : String} {value : Expr}
    {own : Option Stmt} (hmem : typeName ∈ r.typeNames)
    (hrun : (callSite policy typeName value).run now = (.ok own, after)) :
    own = (r.statements policy .root (.delegate typeName false) value).head? := by
  have hknown : now.methods.contains typeName = true := by
    rw [OrderedMap.contains_iff, h.methods]
    exact hmem
  unfold callSite at hrun
  rw [run_bind, run_get] at hrun
  dsimp only at hrun
  rw [if_pos hknown] at hrun
  obtain ⟨body, middle, hbody, hlast⟩ := run_bind_ok hrun
  have hstatements := emitPlan_statements h hbody
  rw [← hstatements]
  split at hlast
  · cases hlast
    rfl
  · rename_i hnone
    cases hlast
    rcases statements_delegate_cases with hnil | ⟨statement, hsingle⟩
    · rw [hstatements.trans hnil]
      rfl
    · exact absurd (hstatements.trans hsingle) (hnone statement)

theorem callSite_eq (h : r.Current now) {typeName : String} {own : Option Stmt}
    (hmem : typeName ∈ r.typeNames)
    (hrun : (callSite policy typeName (.ident "response")).run now = (.ok own, after)) :
    own = r.callSite? policy typeName :=
  callSite_statements h hmem hrun

theorem callSites_eq (h : r.Current now) {typeNames : List String} {calls : List CallSite}
    (hmem : ∀ typeName ∈ typeNames, typeName ∈ r.typeNames)
    (hrun : (callSites policy typeNames).run now = (.ok calls, after)) :
    calls = typeNames.filterMap fun typeName =>
      (r.callSite? policy typeName).map (CallSite.mk typeName) := by
  induction typeNames generalizing now calls with
  | nil =>
      cases hrun
      rfl
  | cons typeName rest ih =>
      obtain ⟨own, middle, hown, hlast⟩ := run_bind_ok hrun
      obtain ⟨others, last, hothers, hpure⟩ := run_bind_ok hlast
      have hmiddle := h.next (callSite_consults policy typeName _) hown
      have hrest := fun other hother => hmem other (List.mem_cons_of_mem _ hother)
      cases hpure
      rw [ih hmiddle hrest hothers, callSite_eq h (hmem _ List.mem_cons_self) hown]
      exact toList_append_filterMap
        (fun typeName => (r.callSite? policy typeName).map (CallSite.mk typeName)) typeName rest

/-- The calls of an output that was written for planned types. -/
theorem writing_callSites {options : Options} {doc : Document} {operations : List OperationPlan}
    {output : Output} (hsound : r.Sound)
    (hmem : ∀ typeName ∈ options.requested doc, typeName ∈ r.typeNames)
    (hrun : (writing options doc operations).run r = (.ok output, after)) :
    output.callSites = (options.requested doc).filterMap fun typeName =>
      (r.callSite? options.policy typeName).map (CallSite.mk typeName) := by
  unfold writing at hrun
  rw [run_bind, run_get] at hrun
  obtain ⟨_, noted, hnote, hlast⟩ := run_bind_ok hrun
  obtain ⟨_, written, hfunctions, hlast⟩ := run_bind_ok hlast
  obtain ⟨_, middle, hoperations, hlast⟩ := run_bind_ok hlast
  obtain ⟨calls, last, hcalls, hlast⟩ := run_bind_ok hlast
  obtain ⟨_, end', _, hpure⟩ := run_bind_ok hlast
  cases hpure
  have hnoted := (Current.refl hsound).next (note_consults _) hnote
  have hwritten := hnoted.next (allTypeFunctions_consults _) hfunctions
  have hmiddle := hwritten.next (operationFunctions_consults _ _) hoperations
  exact callSites_eq hmiddle hmem hcalls

end CallSites

/-! ## A successful generation -/

/-- What an output is made from, and how. -/
structure Output.MadeFrom (options : Options) (doc : Document) (r : Registry)
    (operations : List OperationPlan) (output : Output) : Prop where
  faithful : r.Faithful doc
  registered : ∀ typeName, typeName ∈ r.typeNames ↔ options.Involves doc typeName
  named : ((options.operations doc).map Endpoint.name).Nodup
  converts : List.Forall₂ (fun response operation => operation.Converts doc r response.1 response.2)
    (options.responses doc) operations
  written : output.WrittenFor options r operations
  calls : output.callSites = (options.requested doc).filterMap fun typeName =>
    (r.callSite? options.policy typeName).map (CallSite.mk typeName)

theorem madeFrom_of_planning {options : Options} {doc : Document} {output : Output}
    {operations : List OperationPlan} {r : Registry}
    (hplanning : (planning options doc).run .empty = (.ok operations, r))
    (hrun : generate options doc = .ok output) : output.MadeFrom options doc r operations := by
  have hwalk := planning_yields options doc
  rw [hplanning] at hwalk
  obtain ⟨hfaithful, hconverts⟩ := planning_converts hplanning
  have hregistered : ∀ typeName, typeName ∈ r.typeNames ↔ options.Involves doc typeName :=
    fun typeName => Walk.mem_met_iff_involves hwalk
  have hnodup := Walk.Steps.nodup_taken hwalk
  rw [List.append_nil, List.nodup_reverse] at hnodup
  have hwriting : ((writing options doc operations).run r).1 = .ok output := by
    unfold generate at hrun
    rwa [generation_eq, run_bind, hplanning] at hrun
  refine ⟨hfaithful, hregistered, hnodup, hconverts, writtenFor_of_generate hplanning hrun, ?_⟩
  exact writing_callSites hfaithful.sound
    (fun typeName hmem => (hregistered typeName).2 (.requested hmem)) (Prod.ext hwriting rfl)

theorem exists_madeFrom {options : Options} {doc : Document} {output : Output}
    (hrun : generate options doc = .ok output) :
    ∃ r operations, output.MadeFrom options doc r operations := by
  obtain ⟨operations, r, hplanning⟩ := generate_ok_iff.1 ⟨output, hrun⟩
  exact ⟨r, operations, madeFrom_of_planning hplanning hrun⟩

/-- Related lists stay related if both keep what belongs together. -/
theorem forall₂_filterMap {α β γ : Type} {R : α → β → Prop} {as : List α} {bs : List β}
    {p : α → Bool} {f : β → Option γ} (h : List.Forall₂ R as bs)
    (hp : ∀ a b, R a b → (p a = true ↔ (f b).isSome)) :
    List.Forall₂ (fun a c => ∃ b, R a b ∧ f b = some c) (as.filter p) (bs.filterMap f) := by
  induction h with
  | nil => exact .nil
  | @cons a b _ _ hfirst _ ih =>
      have hiff := hp a b hfirst
      rcases hf : f b with _ | c
      · rw [hf] at hiff
        rw [List.filterMap_cons_none hf, List.filter_cons_of_neg (by simp [hiff])]
        exact ih
      · rw [hf] at hiff
        rw [List.filterMap_cons_some hf, List.filter_cons_of_pos (by simp [hiff])]
        exact .cons ⟨b, hfirst, hf⟩ ih

namespace Output.MadeFrom

variable {options : Options} {doc : Document} {r : Registry} {operations : List OperationPlan}
  {output : Output} (h : output.MadeFrom options doc r operations)

include h

open Classical in
/-- There is one function for each registered type that needs one, in the order of the registry. -/
theorem registeredFunctions : List.Forall₂ (fun typeName f => ∃ own, r.NeedsFunction typeName own ∧
    f = r.functionOfType options.policy typeName own)
      (r.typeNames.filter fun typeName => doc.NeedsFunction typeName) output.typeFunctions := by
  have hsame : List.Forall₂ (fun a b => a = b ∧ b ∈ r.typeNames) r.typeNames r.typeNames :=
    List.forall₂_same.2 fun _ hmem => ⟨rfl, hmem⟩
  rw [h.written.typeFunctions]
  refine (forall₂_filterMap hsame ?_).imp ?_
  · rintro typeName _ ⟨rfl, hmem⟩
    rw [decide_eq_true_iff, ← h.faithful.needsFunction_iff hmem, Option.isSome_iff_exists]
    constructor
    · rintro ⟨own, hneeds⟩
      exact ⟨_, typeFunction?_of_needs hneeds⟩
    · rintro ⟨f, hf⟩
      obtain ⟨own, hneeds, _⟩ := needs_of_typeFunction? hf
      exact ⟨own, hneeds⟩
  · rintro typeName f ⟨_, ⟨rfl, _⟩, hf⟩
    exact needs_of_typeFunction? hf

open Classical in
/-- There is one function for each type that the options are about and that needs one. -/
theorem typeFunctions : ∃ typeNames : List String, typeNames.Nodup ∧
    (∀ typeName, typeName ∈ typeNames ↔ options.ConvertsType doc typeName) ∧
    List.Forall₂ (fun typeName f => ∃ own, r.NeedsFunction typeName own ∧
      f = r.functionOfType options.policy typeName own) typeNames output.typeFunctions := by
  refine ⟨r.typeNames.filter fun typeName => doc.NeedsFunction typeName,
    r.methods.nodup.filter _, fun typeName => ?_, h.registeredFunctions⟩
  rw [List.mem_filter, h.registered, decide_eq_true_iff]
  rfl

open Classical in
/-- There is one function for each operation that the options ask for and whose response holds
dates. -/
theorem operationFunctions : ∃ list : List Endpoint, (list.map Endpoint.name).Nodup ∧
    (∀ endpoint, endpoint ∈ list ↔ options.ConvertsOperation doc endpoint) ∧
    List.Forall₂ (fun endpoint f => ∃ schema operation,
      operation.Converts doc r endpoint schema ∧ r.HoldsDate operation.plan ∧
        f = r.functionOfOperation options.policy operation) list output.operationFunctions := by
  let responses := (options.responses doc).filter fun response => response.2.HoldsDate doc
  refine ⟨responses.map Prod.fst, ?_, fun endpoint => ?_, ?_⟩
  · have hsublist : (responses.map Prod.fst).Sublist (options.operations doc) :=
      (List.filter_sublist.map Prod.fst).trans (sublist_filterMap_response? _)
    exact (hsublist.map Endpoint.name).nodup h.named
  · simp [responses, Options.ConvertsOperation]
  · rw [h.written.operationFunctions, List.forall₂_map_left_iff]
    refine (forall₂_filterMap h.converts ?_).imp ?_
    · intro response operation hconverts
      rw [decide_eq_true_iff, ← h.faithful.holdsDate_iff hconverts.translates hconverts.knows,
        operationFunction?]
      split <;> simp_all
    · rintro response f ⟨operation, hconverts, hf⟩
      obtain ⟨hdate, heq⟩ := holdsDate_of_operationFunction? hf
      exact ⟨response.2, operation, hconverts, hdate, heq⟩

end Output.MadeFrom

end DateReviver
