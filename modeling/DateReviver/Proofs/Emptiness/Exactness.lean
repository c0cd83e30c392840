import DateReviver.Proofs.Session
import Mathlib.Data.Option.Basic

/-!
# Emptiness is date reachability

Between the calls of any session, an answer about a type or a plan is `false` exactly if a date is
reached from it, and an answer `true` also rules out types without a plan; the verdicts that are
kept say the same; and a question fails only at a type without a plan that is reached. As
reachability looks neither at earlier questions nor at the order of properties, no answer depends on
them.
-/

namespace DateReviver

open DateReviver.OpenApi Generation

/-- A verdict about a plan is what is reached from the plan. -/
structure Registry.Exact (r : Registry) (plan : Plan) (empty : Bool) : Prop where
  holdsDate : empty = false ↔ r.HoldsDate plan
  planned : empty = true → ¬ r.MeetsUnplanned plan

/-- An error of a question about a plan is about a registered type without a plan that is reached
from it. -/
def Registry.Blames (r : Registry) (plan : Plan) (error : GenerationError) : Prop :=
  ∃ typeName nullable, error = .prematureEmptinessCheck typeName ∧
    r.Reaches plan (.delegate typeName nullable) ∧ typeName ∈ r.typeNames ∧
      r.plan? typeName = none

namespace Search

variable {r : Registry} {plan : Plan} {s s' : Search}

/-- Where no type is open, `empty` rests on settled types only. -/
theorem Answers.within_settled {pending : Option Nat} (hbelow : s.Below [])
    (h : Answers r [] plan s (.ok (.empty pending), s')) :
    plan.Within False fun name => s'.settled.get? name = some true := by
  obtain ⟨hleans, hwithin⟩ := h
  refine hwithin.mono id ?_
  rintro name (hdone | ⟨j, hdepth, _⟩ | ⟨d, hmem, _⟩)
  · exact hdone
  · cases hdepth
  · exact absurd (hleans.below hbelow _ hmem) (Nat.not_lt_zero d)

theorem Answers.exact {verdict : Verdict} (hbelow : s.Below [])
    (h : Answers r [] plan s (.ok verdict, s')) : r.Exact plan verdict.isEmpty := by
  cases verdict with
  | holdsDate => exact ⟨⟨fun _ => h.2, fun _ => rfl⟩, fun habsurd => by cases habsurd⟩
  | empty pending =>
      have hwithin := h.within_settled hbelow
      have hdecides := h.1.decides
      constructor
      · constructor
        · intro habsurd
          cases habsurd
        · exact fun hdate => absurd hdate (hdecides.not_holdsDate_of_within hwithin)
      · exact fun _ => hdecides.not_meetsUnplanned_of_within hwithin

theorem Answers.blames {error : GenerationError}
    (hclosed : ∀ typeName plan, r.plan? typeName = some plan → r.Knows plan)
    (hknows : r.Knows plan) (h : Answers r [] plan s (.error error, s')) :
    r.Blames plan error := by
  obtain ⟨_, typeName, nullable, herror, hreach, hnone⟩ := h
  refine ⟨typeName, nullable, herror, hreach, ?_, hnone⟩
  cases Registry.knows_of_reaches hclosed hknows hreach with
  | delegate hmem => exact hmem

end Search

/-! ## One question -/

section Question

variable {question : Registry → Search → Except GenerationError Verdict × Search} {plan : Plan}
  {r r' : Registry}

/-- What a question that searches a plan answers. -/
theorem search_exact (hsound : r.Sound)
    (h : ∀ r s, r.Decides s.settled → s.Below [] → Search.Answers r [] plan s (question r s)) :
    (∀ empty, (Generation.search question).run r = (.ok empty, r') → r.Exact plan empty) ∧
      ∀ error, r.Knows plan → (Generation.search question).run r = (.error error, r') →
        r.Blames plan error := by
  have hbelow : Search.Below ⟨r.verdicts, [], [], r.journal⟩ [] := by simp [Search.Below]
  have hanswer := h r ⟨r.verdicts, [], [], r.journal⟩ hsound.decides hbelow
  rw [run_search]
  rcases hquestion : question r ⟨r.verdicts, [], [], r.journal⟩ with ⟨result, s'⟩
  rw [hquestion] at hanswer
  cases result with
  | error e =>
      refine ⟨fun empty heq => (by cases heq), fun error hknows heq => ?_⟩
      cases heq
      exact hanswer.blames hsound.knows hknows
  | ok verdict =>
      refine ⟨fun empty heq => ?_, fun error hknows heq => (by cases heq)⟩
      cases heq
      exact hanswer.exact hbelow

theorem Registry.Exact.of_delegate {typeName : String} {nullable empty : Bool}
    (hplan : r.plan? typeName = some plan) (h : r.Exact (.delegate typeName nullable) empty) :
    r.Exact plan empty := by
  refine ⟨h.holdsDate.trans (Registry.holdsDate_delegate_iff hplan), fun hempty => ?_⟩
  rintro ⟨name, inner, hreach, hunplanned⟩
  exact h.planned hempty ⟨name, inner, .head (.unfold hplan) hreach, hunplanned⟩

/-- A type about which a question succeeds has a plan. -/
theorem plan?_of_isTypeEmpty {typeName : String} {empty : Bool}
    (h : (isTypeEmpty typeName).run r = (.ok empty, r')) :
    ∃ plan, r.plan? typeName = some plan := by
  rcases hplan : r.plan? typeName with _ | plan
  · unfold isTypeEmpty at h
    rw [run_search, typeVerdict] at h
    split at h
    · cases h
    · rename_i found hfound
      rw [hplan] at hfound
      cases hfound
  · exact ⟨plan, rfl⟩

/-- What a question about a type answers. -/
theorem isTypeEmpty_exact (hsound : r.Sound) (typeName : String) :
    (∀ empty, (isTypeEmpty typeName).run r = (.ok empty, r') →
        ∃ plan, r.plan? typeName = some plan ∧ r.Exact plan empty) ∧
      ∀ error, typeName ∈ r.typeNames → (isTypeEmpty typeName).run r = (.error error, r') →
        r.Blames (.delegate typeName false) error := by
  have hanswers := fun (r : Registry) (s : Search) (hdecides : r.Decides s.settled)
    (hbelow : s.Below []) => typeVerdict_answers r [] typeName false s hdecides hbelow
  refine ⟨fun empty hrun => ?_, fun error hmem => ?_⟩
  · obtain ⟨plan, hplan⟩ := plan?_of_isTypeEmpty hrun
    exact ⟨plan, hplan, ((search_exact hsound hanswers).1 empty hrun).of_delegate hplan⟩
  · exact (search_exact hsound hanswers).2 error (.delegate hmem)

theorem isPlanEmpty_exact (hsound : r.Sound) (plan : Plan) :
    (∀ empty, (isPlanEmpty plan).run r = (.ok empty, r') → r.Exact plan empty) ∧
      ∀ error, r.Knows plan → (isPlanEmpty plan).run r = (.error error, r') →
        r.Blames plan error :=
  search_exact hsound fun r s hdecides hbelow =>
    planVerdict_answers r [] plan s hdecides hbelow

/-- A verdict that is kept says what is reached from the plan of the type. -/
theorem verdict_exact (hsound : r.Sound) {typeName : String} {empty : Bool}
    (h : r.verdicts.get? typeName = some empty) :
    ∃ plan, r.plan? typeName = some plan ∧ r.Exact plan empty := by
  cases empty with
  | false =>
      obtain ⟨plan, hplan, hdate⟩ := hsound.decides.holdsDate typeName h
      refine ⟨plan, hplan, ⟨fun _ => hdate, fun _ => rfl⟩, ?_⟩
      exact fun habsurd => by cases habsurd
  | true =>
      obtain ⟨plan, hplan, hwithin⟩ := hsound.decides.empty typeName h
      refine ⟨plan, hplan, ⟨fun habsurd => (by cases habsurd), fun hdate => ?_⟩, ?_⟩
      · exact absurd hdate (hsound.decides.not_holdsDate_of_within hwithin)
      · exact fun _ => hsound.decides.not_meetsUnplanned_of_within hwithin

end Question

/-! ## The order of properties -/

/-- Two plans that differ in the order of properties only, at any depth. -/
inductive Plan.Reordered : Plan → Plan → Prop
  | refl {plan : Plan} : Reordered plan plan
  | trans {p q s : Plan} (h₁ : Reordered p q) (h₂ : Reordered q s) : Reordered p s
  | array {p q : Plan} {nullable : Bool} (h : Reordered p q) :
      Reordered (.array p nullable) (.array q nullable)
  | map {p q : Plan} {nullable : Bool} (h : Reordered p q) :
      Reordered (.map p nullable) (.map q nullable)
  | property {before after : List (String × Plan)} {name : String} {p q : Plan} {nullable : Bool}
      (h : Reordered p q) : Reordered (.object (before ++ (name, p) :: after) nullable)
        (.object (before ++ (name, q) :: after) nullable)
  | permute {properties others : List (String × Plan)} {nullable : Bool}
      (h : properties.Perm others) : Reordered (.object properties nullable)
        (.object others nullable)

/-- Two registries whose plans differ in the order of properties only. -/
def Registry.Reordered (r r' : Registry) : Prop :=
  ∀ typeName, Option.Rel Plan.Reordered (r.plan? typeName) (r'.plan? typeName)

section Order

variable {r r' : Registry} {p q x : Plan}

theorem Plan.Reordered.symm (h : Plan.Reordered p q) : Plan.Reordered q p := by
  induction h with
  | refl => exact .refl
  | trans _ _ ih₁ ih₂ => exact ih₂.trans ih₁
  | array _ ih => exact .array ih
  | map _ ih => exact .map ih
  | property _ ih => exact .property ih
  | permute h => exact .permute h.symm

theorem Registry.Reordered.symm (hr : r.Reordered r') : r'.Reordered r := by
  intro typeName
  have hrel := hr typeName
  generalize r.plan? typeName = mine at hrel ⊢
  generalize r'.plan? typeName = theirs at hrel ⊢
  cases hrel with
  | none => exact .none
  | some h => exact .some h.symm

theorem Plan.Reordered.date {nullable : Bool} (h : Plan.Reordered p q)
    (hdate : p = .date nullable) : q = .date nullable := by
  induction h with
  | refl => exact hdate
  | trans _ _ ih₁ ih₂ => exact ih₂ (ih₁ hdate)
  | array | map | property | permute => cases hdate

/-- Where one plan leads, the other leads up to the order of properties. -/
theorem Plan.Reordered.step (h : Plan.Reordered p q) (hstep : r.Step p x) :
    ∃ y, r.Step q y ∧ Plan.Reordered x y := by
  induction h generalizing x with
  | refl => exact ⟨x, hstep, .refl⟩
  | trans _ _ ih₁ ih₂ =>
      obtain ⟨y, hy, hxy⟩ := ih₁ hstep
      obtain ⟨z, hz, hyz⟩ := ih₂ hy
      exact ⟨z, hz, hxy.trans hyz⟩
  | array h _ =>
      cases hstep
      exact ⟨_, .item, h⟩
  | map h _ =>
      cases hstep
      exact ⟨_, .value, h⟩
  | @property _ _ _ p q _ h _ =>
      cases hstep with
      | property hmem =>
          rw [List.mem_append, List.mem_cons] at hmem
          rcases hmem with hbefore | heq | hafter
          · exact ⟨x, .property (List.mem_append_left _ hbefore), .refl⟩
          · cases heq
            exact ⟨q, .property (List.mem_append_right _ List.mem_cons_self), h⟩
          · exact ⟨x, .property (List.mem_append_right _ (List.mem_cons_of_mem _ hafter)), .refl⟩
  | permute h =>
      cases hstep with
      | property hmem => exact ⟨x, .property (h.subset hmem), .refl⟩

theorem Registry.Reordered.step (hr : r.Reordered r') (hstep : r.Step p x) :
    ∃ y, r'.Step p y ∧ Plan.Reordered x y := by
  cases hstep with
  | item => exact ⟨_, .item, .refl⟩
  | value => exact ⟨_, .value, .refl⟩
  | property hmem => exact ⟨_, .property hmem, .refl⟩
  | unfold hplan =>
      rename_i typeName nullable
      have hrel := hr typeName
      rw [hplan] at hrel
      rcases hplan' : r'.plan? typeName with _ | y
      · rw [hplan'] at hrel
        cases hrel
      · rw [hplan'] at hrel
        cases hrel with
        | some hxy => exact ⟨y, .unfold hplan', hxy⟩

/-- Dates are reached whatever the order of properties is. -/
theorem Registry.Reordered.holdsDate (hr : r.Reordered r') (hpq : Plan.Reordered p q)
    (h : r.HoldsDate p) : r'.HoldsDate q := by
  obtain ⟨nullable, hreach⟩ := h
  induction hreach using Relation.ReflTransGen.head_induction_on generalizing q with
  | refl => exact hpq.date rfl ▸ Registry.holdsDate_date
  | head hstep _ ih =>
      obtain ⟨y, hy, hxy⟩ := hpq.step hstep
      obtain ⟨z, hz, hyz⟩ := hr.step hy
      exact (ih (hxy.trans hyz)).of_step hz

/-- Exact verdicts agree whatever the order of properties is. -/
theorem Registry.Exact.agree {empty empty' : Bool} (hr : r.Reordered r')
    (hpq : Plan.Reordered p q) (h : r.Exact p empty) (h' : r'.Exact q empty') :
    empty = empty' := by
  rw [Bool.eq_iff_iff, ← Bool.not_eq_false, ← Bool.not_eq_false, not_iff_not, h.holdsDate,
    h'.holdsDate]
  exact ⟨hr.holdsDate hpq, hr.symm.holdsDate hpq.symm⟩

end Order

/-! ## Any session -/

/-- In any session on a document, failed calls included, an answer that there is no date is right,
as is an answer that there is one; so are the verdicts that are kept; a question fails only at a
type without a plan that is reached; and the answers of two sessions that made the same plans, up to
the order of properties, agree. -/
theorem emptiness_exact (doc : Document) (calls : List Call) :
    let r := Registry.session doc calls
    (∀ typeName empty after, (isTypeEmpty typeName).run r = (.ok empty, after) →
      ∃ plan, r.plan? typeName = some plan ∧ r.Exact plan empty) ∧
    (∀ plan empty after, (isPlanEmpty plan).run r = (.ok empty, after) →
      r.Exact plan empty) ∧
    (∀ typeName empty, r.verdicts.get? typeName = some empty →
      ∃ plan, r.plan? typeName = some plan ∧ r.Exact plan empty) ∧
    (∀ typeName error after, typeName ∈ r.typeNames →
      (isTypeEmpty typeName).run r = (.error error, after) →
      r.Blames (.delegate typeName false) error) ∧
    (∀ plan error after, r.Knows plan → (isPlanEmpty plan).run r = (.error error, after) →
      r.Blames plan error) ∧
    ∀ doc' calls', let r' := Registry.session doc' calls'
      r.Reordered r' →
      (∀ typeName empty empty' after after', (isTypeEmpty typeName).run r = (.ok empty, after) →
        (isTypeEmpty typeName).run r' = (.ok empty', after') → empty = empty') ∧
      ∀ plan plan' empty empty' after after', Plan.Reordered plan plan' →
        (isPlanEmpty plan).run r = (.ok empty, after) →
        (isPlanEmpty plan').run r' = (.ok empty', after') → empty = empty' := by
  intro r
  have hsound : r.Sound := Registry.session_sound doc calls
  refine ⟨fun typeName => ?_, fun plan => ?_, fun typeName empty => ?_, fun typeName => ?_,
    fun plan => ?_, fun doc' calls' => ?_⟩
  · exact fun empty after => (isTypeEmpty_exact hsound typeName).1 empty
  · exact fun empty after => (isPlanEmpty_exact hsound plan).1 empty
  · exact verdict_exact hsound
  · exact fun error after => (isTypeEmpty_exact hsound typeName).2 error
  · exact fun error after => (isPlanEmpty_exact hsound plan).2 error
  · intro r' hr
    have hsound' : r'.Sound := Registry.session_sound doc' calls'
    constructor
    · intro typeName empty empty' after after' hask hask'
      obtain ⟨plan, hplan, hexact⟩ := (isTypeEmpty_exact hsound typeName).1 empty hask
      obtain ⟨plan', hplan', hexact'⟩ := (isTypeEmpty_exact hsound' typeName).1 empty' hask'
      have hrel := hr typeName
      rw [hplan, hplan'] at hrel
      cases hrel with
      | some hreordered => exact hexact.agree hr hreordered hexact'
    · intro plan plan' empty empty' after after' hreordered hask hask'
      have hexact := (isPlanEmpty_exact hsound plan).1 empty hask
      exact hexact.agree hr hreordered ((isPlanEmpty_exact hsound' plan').1 empty' hask')

end DateReviver
