import DateReviver.Proofs.Conversion
import DateReviver.Proofs.Output

/-!
# When the names of functions are distinct

The function for a type is named by a word that is made from the name of the type, the function for
an operation by a word that is made from the name of the operation. Operations have distinct names,
but letters change their case on the way to the word, and so do the words of types, which also lose
their separators; and the word of a type may end as those of operations do. Each of these makes two
functions with one name.
-/

namespace DateReviver

open DateReviver.OpenApi DateReviver.TypeScript DateReviver.Text Registry

/-- The word in the name of the function for a type. -/
def typeWord (typeName : String) : String :=
  capitalize (identifier (capitalize typeName))

/-- The word in the name of the function for an operation. -/
def Endpoint.word (endpoint : Endpoint) : String :=
  capitalize endpoint.name ++ "Operation"

/-- The name of a function with its word in the middle. -/
def wordedName (word : String) : String :=
  "transform" ++ word ++ "Response"

theorem wordedName_injective : Function.Injective wordedName := by
  intro a b h
  have hlists := congrArg String.toList h
  simp only [wordedName, String.toList_append] at hlists
  exact String.toList_inj.1 (List.append_cancel_left (List.append_cancel_right hlists))

theorem Endpoint.name_functionOfOperation {doc : Document} {r : Registry} {policy : GuardPolicy}
    {endpoint : Endpoint} {schema : Schema} {operation : OperationPlan}
    (h : operation.Converts doc r endpoint schema) :
    (r.functionOfOperation policy operation).name = wordedName endpoint.word := by
  have hend : "Operation" ++ "Response" = "OperationResponse" := by decide
  rw [functionOfOperation, h.name, wordedName, Endpoint.word, ← hend, ← String.append_assoc,
    ← String.append_assoc]
  rfl

namespace Output.MadeFrom

variable {options : Options} {doc : Document} {r : Registry} {operations : List OperationPlan}
  {output : Output} (h : output.MadeFrom options doc r operations)

include h

/-- The names in a module are made from the words of the types and of the operations. -/
theorem names_eq : ∃ (typeNames : List String) (list : List Endpoint),
    typeNames.Nodup ∧ (list.map Endpoint.name).Nodup ∧
      (∀ typeName, typeName ∈ typeNames ↔ options.ConvertsType doc typeName) ∧
      (∀ endpoint, endpoint ∈ list ↔ options.ConvertsOperation doc endpoint) ∧
      output.toModule.map Function.name =
        (typeNames.map typeWord ++ list.map Endpoint.word).map wordedName := by
  obtain ⟨typeNames, hnodup, htypes, hfunctions⟩ := h.typeFunctions
  obtain ⟨list, hnames, hlist, hoperations⟩ := h.operationFunctions
  refine ⟨typeNames, list, hnodup, hnames, htypes, hlist, ?_⟩
  have hoftypes : output.typeFunctions.map Function.name =
      (typeNames.map typeWord).map wordedName := by
    rw [List.map_map, ← List.forall₂_eq_eq_eq, List.forall₂_map_left_iff, List.forall₂_map_right_iff]
    refine hfunctions.flip.imp ?_
    rintro f typeName ⟨own, _, rfl⟩
    rfl
  have hofoperations : output.operationFunctions.map Function.name =
      (list.map Endpoint.word).map wordedName := by
    rw [List.map_map, ← List.forall₂_eq_eq_eq, List.forall₂_map_left_iff, List.forall₂_map_right_iff]
    refine hoperations.flip.imp ?_
    rintro f endpoint ⟨schema, operation, hconverts, _, rfl⟩
    exact Endpoint.name_functionOfOperation hconverts
  rw [Output.toModule, List.map_append, List.map_append, hoftypes, hofoperations]

end Output.MadeFrom

/-- The functions of an output have distinct names exactly if different types have different words,
different operations have different words, and no type shares its word with an operation. -/
theorem names_nodup_iff {options : Options} {doc : Document} {output : Output}
    (hrun : generate options doc = .ok output) : (output.toModule.map Function.name).Nodup ↔
      (∀ a b, options.ConvertsType doc a → options.ConvertsType doc b →
          typeWord a = typeWord b → a = b) ∧
        (∀ a b, options.ConvertsOperation doc a → options.ConvertsOperation doc b →
          a.word = b.word → a = b) ∧
        ∀ a b, options.ConvertsType doc a → options.ConvertsOperation doc b →
          typeWord a ≠ b.word := by
  obtain ⟨r, operations, hmade⟩ := exists_madeFrom hrun
  obtain ⟨typeNames, list, hnodup, hnames, htypes, hlist, heq⟩ := hmade.names_eq
  rw [heq, List.nodup_map_iff wordedName_injective, List.nodup_append,
    List.nodup_map_iff_inj_on hnodup, List.nodup_map_iff_inj_on hnames.of_map]
  simp only [htypes, hlist, List.forall_mem_map]
  constructor
  · rintro ⟨htypes, hoperations, happart⟩
    exact ⟨fun a b ha hb => htypes a ha b hb, fun a b ha hb => hoperations a ha b hb,
      fun a b ha hb => happart a ha b hb⟩
  · rintro ⟨htypes, hoperations, happart⟩
    exact ⟨fun a ha b hb => htypes a b ha hb, fun a ha b hb => hoperations a b ha hb,
      fun a ha b hb => happart a b ha hb⟩

/-- There is one type and one operation, with different words. -/
theorem names_nodup_iff_chained : ∃ output, generate {} (chained true) = .ok output ∧
    (output.toModule.map Function.name).Nodup := by
  obtain ⟨output, hrun⟩ := generate_ok_iff.2 ⟨_, _, planning_chained true⟩
  have htype : ∀ a, Options.ConvertsType {} (chained true) a → a = "Entry" := by
    rintro a ⟨_, schema, _, _, hschema, _⟩
    exact (eq_of_schema?_chained true hschema).1
  have hoperation : ∀ a, Options.ConvertsOperation {} (chained true) a →
      a = ⟨"/entries", .get, latestEntry⟩ := by
    rintro a ⟨schema, hresponse, _⟩
    have hmem : a ∈ endpoints (chained true) := (Options.mem_responses_iff.1 hresponse).1
    rwa [endpoints_chained, List.mem_singleton] at hmem
  refine ⟨output, hrun, (names_nodup_iff hrun).2 ⟨?_, ?_, ?_⟩⟩
  · intro a b ha hb _
    rw [htype a ha, htype b hb]
  · intro a b ha hb _
    rw [hoperation a ha, hoperation b hb]
  · intro a b ha hb
    rw [htype a ha, hoperation b hb]
    decide +kernel

/-- Separators are lost on the way to a word. -/
example : typeWord "pet-shop" = typeWord "PetShop" := by
  decide +kernel

/-- The word of a type may be one of an operation. -/
example (operation : Operation) (h : operation.operationId = some "readAt") :
    typeWord "readAtOperation" = Endpoint.word ⟨"/at", .get, operation⟩ := by
  simp only [Endpoint.word, Endpoint.name, operationName, h]
  decide +kernel

/-! ## Two operations with one name -/

/-- An operation that answers with a date-time string. -/
def answering (operationId : String) : Operation :=
  ⟨some operationId, .ofList [("200", ⟨none, some (.ofList
    [("application/json", ⟨some .dateTime⟩)])⟩)]⟩

/-- Two operations with identifiers that differ in the case of their first letter. -/
def rivals : Document :=
  ⟨.ofList [("/at", ⟨some (answering "readAt"), some (answering "ReadAt"), none, none, none⟩)], none⟩

/-- The first of the two operations, and the second. -/
def readers : List Endpoint :=
  [⟨"/at", .get, answering "readAt"⟩, ⟨"/at", .post, answering "ReadAt"⟩]

theorem endpoints_rivals : endpoints rivals = readers := by
  have hpaths : rivals.paths.entries
      = [("/at", ⟨some (answering "readAt"), some (answering "ReadAt"), none, none, none⟩)] := rfl
  simp [endpoints, readers, hpaths, HttpMethod.all, PathItem.operation?]

theorem generate_rivals : ∃ output, generate {} rivals = .ok output := by
  have hinside : Schema.dateTime.Inside [] :=
    .text (isOpen_of_untyped ⟨rfl, rfl, rfl⟩ rfl) rfl
  have hstart : Walk.start {} rivals = ⟨[], [], readers.map .endpoint⟩ := by
    rw [← endpoints_rivals]
    rfl
  have hnew : operationName "/at" .post (answering "ReadAt") ∉
      [operationName "/at" .get (answering "readAt")] := by decide +kernel
  rw [generate_ok_iff_steps, hstart]
  refine ⟨_, _, .tail (.tail (.tail (.single (.response ?_ rfl)) (.inside hinside))
    (.response hnew rfl)) (.inside hinside)⟩
  exact List.not_mem_nil

/-- Two operations have different names, but functions of one name. -/
theorem names_not_nodup_rivals : ∃ output, generate {} rivals = .ok output ∧
    ¬ (output.toModule.map Function.name).Nodup := by
  obtain ⟨output, hrun⟩ := generate_rivals
  obtain ⟨r, operations, hmade⟩ := exists_madeFrom hrun
  obtain ⟨typeNames, list, _, hnames, _, hlist, heq⟩ := hmade.names_eq
  have hconverts : ∀ endpoint ∈ readers, endpoint ∈ list := by
    intro endpoint hmem
    have hoperation : endpoint ∈ Options.operations {} rivals := by
      rw [← endpoints_rivals] at hmem
      exact hmem
    have hoffer : endpoint.operation.offer? = some (.inr .dateTime) := by
      rcases List.mem_pair.1 hmem with rfl | rfl <;> rfl
    exact (hlist endpoint).2 ⟨.dateTime, Options.mem_responses_iff.2 ⟨hoperation, hoffer⟩, [], _,
      .here (isOpen_of_untyped ⟨rfl, rfl, rfl⟩ rfl) rfl rfl⟩
  refine ⟨output, hrun, fun hnodup => ?_⟩
  rw [heq, List.nodup_map_iff wordedName_injective, List.nodup_append] at hnodup
  have hinjective := List.inj_on_of_nodup_map hnodup.2.1
  have hwords : (Endpoint.word ⟨"/at", .get, answering "readAt"⟩) =
      Endpoint.word ⟨"/at", .post, answering "ReadAt"⟩ := by decide +kernel
  have hsame := hinjective (hconverts _ (by simp [readers])) (hconverts _ (by simp [readers])) hwords
  injection hsame with _ hmethod
  cases hmethod

end DateReviver
