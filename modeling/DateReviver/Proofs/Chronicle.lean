import DateReviver.Proofs.Planning.Termination
import DateReviver.Proofs.Emptiness.Walk
import DateReviver.Proofs.Session

/-!
# A type is planned once

Whenever the schema of a type is planned, the journal says so. Over the life of a registry, in which any
calls are made on it, failed ones included and for any documents, the journal tells of the planning of
each registered type exactly once, in the order of the types: neither a question nor emission has any
type planned, and a call that plans has only those planned that it appends. Beside the termination of
planning and the bound on open types this is what planning costs.
-/

namespace DateReviver

open DateReviver.OpenApi Generation

namespace Registry

/-- The types whose planning the journal reports, in order. -/
def plannings (r : Registry) : List String :=
  r.journal.reverse.filterMap Note.planned?

/-- The types are those whose planning is reported. -/
def Chronicled (r : Registry) : Prop :=
  r.plannings = r.typeNames

/-- A registry whose planning is reported right stays so. -/
def KeepsChronicle (r r' : Registry) : Prop :=
  r.Chronicled → r'.Chronicled

instance : IsPreorder Registry KeepsChronicle where
  refl _ := id
  trans _ _ _ h₁ h₂ := h₂ ∘ h₁

variable {r r' : Registry} {found : List (String × Option Plan)}

/-- A step that reports no planning and leaves the types alone. -/
theorem KeepsChronicle.of_same (hplannings : r'.plannings = r.plannings)
    (hmethods : r'.methods = r.methods) : r.KeepsChronicle r' := by
  intro h
  unfold Chronicled at h ⊢
  rw [hplannings, h, typeNames, typeNames, hmethods]

theorem plannings_register :
    (r.register found).plannings = r.plannings ++ found.map Prod.fst := by
  unfold plannings register
  dsimp only
  generalize r.journal = journal
  induction found generalizing journal with
  | nil => simp
  | cons entry rest ih =>
      rw [List.foldl_cons, ih, List.reverse_cons, List.filterMap_append]
      simp [Note.planned?]

/-- New types are appended, and so are the reports of their planning. -/
theorem keepsChronicle_register {doc : Document} {origin : String → Schema → Prop}
    (h : Discovers doc origin r.typeNames found) : r.KeepsChronicle (r.register found) := by
  intro hchronicled
  unfold Chronicled at hchronicled ⊢
  rw [plannings_register, typeNames_register h, hchronicled]

theorem plannings_record {n : Note} (h : n.planned? = none) : (r.record n).plannings = r.plannings := by
  unfold plannings record
  simp [h]

end Registry

open Registry

/-! ## Steps that plan nothing -/

/-- A search reports no planning. -/
theorem Search.planned_rule (r : Registry) : Search.Rule r fun _ s answer =>
    answer.2.journal.filterMap Note.planned? = s.journal.filterMap Note.planned? := by
  constructor
  case still => exact fun _ _ _ => rfl
  case opened =>
    intro stack s typeName plan _ _ _ _ hwalk
    rw [← show (s.enter typeName).journal = s.journal from rfl, ← hwalk]
    rcases planVerdict r (typeName :: stack) plan (s.enter typeName) with ⟨e | (_ | (_ | pending)), s'⟩
    · rfl
    · rfl
    · rfl
    · rw [conclude]
      split
      · rfl
      · rfl
  case further =>
    intro stack s pending s' plan rest _ hown hothers
    exact hothers.trans hown

theorem search_keepsChronicle (question : Question) :
    Changes KeepsChronicle question.call := by
  intro r
  rw [Question.call, run_search]
  refine .of_same ?_ rfl
  unfold plannings
  rw [List.filterMap_reverse, List.filterMap_reverse]
  exact congrArg List.reverse ((Search.planned_rule r).verdict question [] _)

theorem note_keepsChronicle {n : Note} (h : n.planned? = none) :
    Changes KeepsChronicle (note n) :=
  fun _ => .of_same (plannings_record h) rfl

/-! ## Calls -/

theorem Call.step_keepsChronicle (doc : Document) (call : Call) :
    Changes KeepsChronicle (call.step doc) := by
  apply Call.step_changes
  · exact fun r origin found hdiscovers => keepsChronicle_register hdiscovers
  · exact fun typeName => search_keepsChronicle (.type typeName)
  · exact fun plan => search_keepsChronicle (.plan plan)
  · exact fun n hn => note_keepsChronicle hn

theorem Registry.lifetime_chronicled (calls : List (Document × Call)) :
    (Registry.lifetime calls).Chronicled :=
  foldl_changes Call.step_keepsChronicle calls .empty rfl

/-- Planning a schema comes to an end whichever names are known, by calls that use up component names or
plan smaller schemas, and to one result. The types that it finds are those that are opened by these
calls, each once. At no moment are more types open than there are components; a type that is registered
under a name of its own is one more. Over the life of a registry, each of its types is planned once and
none besides. -/
theorem planning_terminates (doc : Document) :
    (WellFounded fun q p : Planning => ∃ opened, p.Calls doc opened q) ∧
    (∀ p opened q, Planning.Calls doc p opened q →
      Prod.Lex (· < ·) (· < ·) (q.remaining doc) (p.remaining doc)) ∧
    (∀ known schema, ∃! planned, Plans doc known schema planned) ∧
    (∀ known schema, let planned := planSchema doc known schema
      Plans doc known schema planned ∧ planned.names.Nodup ∧
        (∀ name ∈ planned.names, name ∉ known) ∧
          ∀ name, name ∈ planned.names ↔ Planning.Opens doc ⟨known, schema⟩ name) ∧
    (∀ known schema opened last, Planning.Leads doc ⟨known, schema⟩ opened last →
      opened.Nodup ∧ opened.length ≤ doc.schemas.size) ∧
    (∀ name known schema opened last, Planning.Leads doc ⟨name :: known, schema⟩ opened last →
      (name :: opened).Nodup ∧ (name :: opened).length ≤ doc.schemas.size + 1 ∧
        (name ∈ doc.typeNames → (name :: opened).length ≤ doc.schemas.size)) ∧
    ∀ calls, let r := Registry.lifetime calls
      r.plannings = r.typeNames ∧ r.plannings.Nodup := by
  refine ⟨Planning.wellFounded_calls doc, fun _ _ _ => Planning.Calls.remaining_lt,
    fun known schema => ?_, fun known schema => ?_, fun _ _ _ _ h => ⟨h.opened_new.1, h.length_le⟩,
    fun _ _ _ _ _ => Planning.Leads.length_le_of_registered, fun calls => ?_⟩
  · exact ⟨_, planSchema_plans doc known schema, fun _ h => h.eq_planSchema⟩
  · have hdiscovers := (planSchema_meets doc known schema).discovers
    exact ⟨planSchema_plans doc known schema, hdiscovers.nodup, hdiscovers.fresh,
      fun _ => mem_names_iff_opens⟩
  · have hchronicled : (Registry.lifetime calls).plannings = _ := Registry.lifetime_chronicled calls
    exact ⟨hchronicled, hchronicled ▸ (Registry.lifetime calls).methods.nodup⟩

end DateReviver
