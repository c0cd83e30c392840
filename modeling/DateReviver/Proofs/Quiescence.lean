import DateReviver.Proofs.Emptiness.Bookkeeping
import DateReviver.Proofs.Emptiness.Exactness
import DateReviver.Proofs.Lifecycle

/-!
# Calls that only ask leave nothing open

A call that asks for emptiness or writes statements puts questions to the registry one after the other,
and may be stopped by the failure of one of them. Kept as books, the registry is at rest before each
question, and it is at rest again after each question, answered or failed: no type is counted as open or
marked so, and none leans. What has changed is that some of the built types have their verdicts.
-/

namespace DateReviver

open DateReviver.OpenApi Generation

/-- No type is open and none leans. -/
structure Desk.AtRest (d : Desk) : Prop where
  depth : d.depth = 0
  leaning : d.leaning = []
  mark : ∀ typeName depth, d.mark typeName ≠ .opened depth

namespace Registry

/-- What a question starts from. -/
def start (r : Registry) : Search :=
  ⟨r.verdicts, [], [], r.journal⟩

/-- The books of a registry, between questions. -/
def desk (r : Registry) : Desk :=
  r.start.desk []

/-- A registry takes a note, or it is asked one question and keeps the books that are left, whatever the
answer. -/
inductive Asked (r : Registry) : Registry → Prop
  | noted (n : Note) : Asked r (r.record n)
  | answered {r' : Registry} {question : Question} {answer : Except GenerationError Verdict}
      (hmethods : r'.methods = r.methods) (h : Desk.Asks r r.desk question answer r'.desk) :
      Asked r r'

/-- A registry takes notes and is asked questions, one after the other. -/
abbrev Questioned : Registry → Registry → Prop :=
  Relation.ReflTransGen Asked

instance : IsPreorder Registry Questioned where
  refl _ := .refl
  trans _ _ _ := .trans

variable {r r' : Registry} {typeName : String}

theorem start_confined (r : Registry) : r.start.Confined [] :=
  .of_leaning_eq_nil rfl fun _ hmem => by cases hmem

theorem desk_atRest (r : Registry) : r.desk.AtRest :=
  ⟨rfl, rfl, fun _ _ => Search.mark_nil_ne_opened⟩

/-- A question leaves books at rest, and in them every verdict that was there. -/
theorem atRest_of_asks {question : Question} {answer : Except GenerationError Verdict} {d : Desk}
    (h : Desk.Asks r r.desk question answer d) :
    d.AtRest ∧ ∀ typeName empty, r.verdicts.get? typeName = some empty →
      d.mark typeName = .settled empty := by
  obtain ⟨_, rfl⟩ := (Desk.asks_iff r.start_confined).1 h
  obtain ⟨hconfined, hkeeps⟩ := question.verdict_confined (r := r) r.start_confined
  refine ⟨⟨rfl, hconfined.leaning_eq_nil, fun _ _ => Search.mark_nil_ne_opened⟩, ?_⟩
  intro typeName empty hold
  exact Search.mark_of_settled (hkeeps typeName empty hold)

theorem mark_desk_eq_settled_iff {empty : Bool} :
    r.desk.mark typeName = .settled empty ↔ r.verdicts.get? typeName = some empty := by
  show r.start.mark [] typeName = _ ↔ _
  constructor
  · intro h
    rw [Search.mark, Search.depth?] at h
    split at h
    · rename_i hsettled
      cases h
      exact hsettled
    · cases h
    · cases h
  · intro h
    exact Search.mark_of_settled h

theorem Asked.settled (h : r.Asked r') {empty : Bool}
    (hsettled : r.verdicts.get? typeName = some empty) :
    r'.verdicts.get? typeName = some empty := by
  cases h with
  | noted n => exact hsettled
  | answered _ h => exact mark_desk_eq_settled_iff.1 ((atRest_of_asks h).2 typeName empty hsettled)

theorem Questioned.settled (h : r.Questioned r') {empty : Bool}
    (hsettled : r.verdicts.get? typeName = some empty) :
    r'.verdicts.get? typeName = some empty := by
  induction h with
  | refl => exact hsettled
  | tail _ hlast ih => exact hlast.settled ih

end Registry

open Registry

/-! ## Questions as steps of a run -/

/-- The error of a question that came upon a type without a plan. -/
def GenerationError.IsPremature (e : GenerationError) : Prop :=
  ∃ typeName, e = .prematureEmptinessCheck typeName

/-- A question that is put to a registry leaves its books as they are kept. -/
theorem search_runs (question : Question) :
    Runs Questioned GenerationError.IsPremature question.call := by
  have hasks (r : Registry) : Desk.Asks r r.desk question (question.verdict r [] r.start).1
      ((question.verdict r [] r.start).2.desk []) :=
    (Desk.asks_iff r.start_confined).2 ⟨rfl, rfl⟩
  constructor
  · intro r
    have hleaning := (question.verdict_confined (r := r) r.start_confined).1.leaning_eq_nil
    have hown := hasks r
    rw [Search.desk, hleaning] at hown
    rw [Question.call, run_search]
    exact .single (.answered rfl hown)
  · intro r e he
    rw [Question.call, run_search] at he
    have hown := hasks r
    unfold Registry.start at hown
    rcases hresult : (question.verdict r [] ⟨r.verdicts, [], [], r.journal⟩).1 with e' | verdict
    · rw [hresult] at hown
      dsimp only at he
      rw [hresult] at he
      cases he
      obtain ⟨typeName, herror, _⟩ := hown.exists_premature rfl
      exact ⟨typeName, herror⟩
    · dsimp only at he
      rw [hresult] at he
      cases he

theorem note_questioned (n : Note) : Runs Questioned GenerationError.IsPremature (note n) := by
  constructor
  · intro r
    exact .single (.noted n)
  · intro r e he
    cases he

/-! ## What a call that only asks leaves -/

/-- A registry as it is left by a call that only asks. Between the questions of the call it was at rest;
the types are the same, with their numbers and plans; a stage is reached only by a type that was built,
with the verdict that says what is reached from its plan; and an empty type names empty types only. -/
structure Registry.Quiet (r r' : Registry) : Prop where
  questioned : r.Questioned r'
  atRest : ∀ s, r.Questioned s → ∀ question answer d, Desk.Asks s s.desk question answer d → d.AtRest
  desk : r'.desk.AtRest
  typeNames : r'.typeNames = r.typeNames
  id? : ∀ typeName, r'.id? typeName = r.id? typeName
  plan? : ∀ typeName, r'.plan? typeName = r.plan? typeName
  stage? : ∀ typeName, r.stage? typeName ≠ some .built → r'.stage? typeName = r.stage? typeName
  built : ∀ typeName, r.stage? typeName = some .built → r'.stage? typeName = some .built ∨
    ∃ empty plan, r'.stage? typeName = some (.settled empty) ∧ r'.plan? typeName = some plan ∧
      r'.Exact plan empty
  delegates : ∀ typeName plan other, r'.stage? typeName = some (.settled true) →
    r'.plan? typeName = some plan → plan.Mentions other → r'.stage? other = some (.settled true)

namespace Registry

variable {r r' : Registry} {typeName : String}

theorem stage?_eq_settled_iff {empty : Bool} : r.stage? typeName = some (.settled empty) ↔
    (∃ plan, r.plan? typeName = some plan) ∧ r.verdicts.get? typeName = some empty := by
  rw [stage?, plan?]
  rcases r.methods.get? typeName with _ | _ | plan
  · simp
  · simp
  · cases r.verdicts.get? typeName <;> simp

theorem Sound.stage?_of_verdict (hsound : r.Sound) {empty : Bool}
    (h : r.verdicts.get? typeName = some empty) : r.stage? typeName = some (.settled empty) := by
  obtain ⟨plan, hplan, _⟩ := verdict_exact hsound h
  exact stage?_eq_settled_iff.2 ⟨⟨plan, hplan⟩, h⟩

/-- A stage changes only where a verdict is added, and a verdict is added only to a built type. -/
theorem Questioned.stage?_cases (h : r.Questioned r') (hmethods : r'.methods = r.methods)
    (hsound' : r'.Sound) : r'.stage? typeName = r.stage? typeName ∨
      r.stage? typeName = some .built ∧ ∃ empty, r'.verdicts.get? typeName = some empty := by
  have hsame (hverdict : r'.verdicts.get? typeName = r.verdicts.get? typeName) :
      r'.stage? typeName = r.stage? typeName := by
    rw [stage?, stage?, hmethods, hverdict]
  rcases hold : r.verdicts.get? typeName with _ | empty
  · rcases hnew : r'.verdicts.get? typeName with _ | empty
    · exact .inl (hsame (hnew.trans hold.symm))
    · obtain ⟨plan, hplan, _⟩ := verdict_exact hsound' hnew
      rw [plan?, hmethods, Option.join_eq_some_iff] at hplan
      refine .inr ⟨?_, empty, rfl⟩
      rw [stage?, hplan, hold]
      rfl
  · exact .inl (hsame ((h.settled hold).trans hold.symm))

theorem Quiet.of_consulted (hsound : r.Sound) (hconsulted : r.Consulted r')
    (hquestioned : r.Questioned r') : r.Quiet r' := by
  have hsound' : r'.Sound := hconsulted.sound hsound
  constructor
  case questioned => exact hquestioned
  case atRest => exact fun s _ question answer d hasks => (atRest_of_asks hasks).1
  case desk => exact r'.desk_atRest
  case typeNames => exact hconsulted.typeNames
  case id? =>
    intro typeName
    rw [Registry.id?, Registry.id?, hconsulted.typeNames]
  case plan? => exact hconsulted.plan?
  case stage? =>
    intro typeName hstage
    rcases hquestioned.stage?_cases hconsulted.methods hsound' with hsame | ⟨hbuilt, _⟩
    · exact hsame
    · exact absurd hbuilt hstage
  case built =>
    intro typeName hbuilt
    rcases hquestioned.stage?_cases hconsulted.methods hsound' with hsame | ⟨_, empty, hverdict⟩
    · exact .inl (hsame.trans hbuilt)
    · obtain ⟨plan, hplan, hexact⟩ := verdict_exact hsound' hverdict
      exact .inr ⟨empty, plan, hsound'.stage?_of_verdict hverdict, hplan, hexact⟩
  case delegates =>
    intro typeName plan other hsettled hplan hmentions
    obtain ⟨found, hfound, hwithin⟩ :=
      hsound'.decides.empty typeName (stage?_eq_settled_iff.1 hsettled).2
    rw [hplan, Option.some.injEq] at hfound
    obtain ⟨path, nullable, hpart⟩ := hmentions
    rw [← hfound] at hwithin
    cases hwithin.of_part hpart with
    | delegate hempty => exact hsound'.stage?_of_verdict hempty

end Registry

/-- Whatever was called before, a call that asks for emptiness or writes statements leaves the registry at
rest, with the types that were there and no stage changed but by a right verdict. So does a call that
fails; it fails only at a type without a plan. -/
theorem inquiry_quiet (doc : Document) (calls : List Call) (call : Call) (h : ¬ call.IsPlanning) :
    let r := Registry.session doc calls
    r.Quiet ((call.step doc).run r).2 ∧
      ∀ e, ((call.step doc).run r).1 = .error e → e.IsPremature := by
  intro r
  have hruns : Runs Questioned GenerationError.IsPremature (call.step doc) :=
    Call.step_runs (fun typeName => search_runs (.type typeName))
      (fun plan => search_runs (.plan plan)) (fun n _ => note_questioned n) h
  have hsound : r.Sound := session_sound doc calls
  exact ⟨.of_consulted hsound (Call.step_consults h r) (hruns.changes r), hruns.error r⟩

/-- A document with a component that refers to a missing one. -/
def dangling : Document :=
  ⟨.empty, some ⟨some (.ofList [("Broken", .referring "Gone")])⟩⟩

/-- The component cannot be planned, and another type that refers to it is planned all the same. -/
def danglingCalls : List Call :=
  [.plan (.referring "Broken"), .register "Outer" (.referring "Broken")]

theorem session_dangling : Registry.session dangling danglingCalls =
    (Registry.empty.register [("Broken", none)]).register
      [("Outer", some (.delegate "Broken" false))] := by
  have hresolve : dangling.resolve (componentRoot ++ "Broken") = .ok ("Broken", .referring "Gone") := by
    have hname : referencedName? (componentRoot ++ "Broken") = some "Broken" := by decide +kernel
    have hentry : dangling.schema? "Broken" = some (.referring "Gone") := rfl
    simp [Document.resolve, hname, hentry]
  have hgone : dangling.resolve (componentRoot ++ "Gone") =
      .error (.unknownSchema (componentRoot ++ "Gone") "Gone") := by
    have hname : referencedName? (componentRoot ++ "Gone") = some "Gone" := by decide +kernel
    have hentry : dangling.schema? "Gone" = none := rfl
    simp [Document.resolve, hname, hentry]
  have hplan : planSchema dangling [] (.referring "Broken") =
      ⟨[("Broken", none)], .error (.unknownSchema (componentRoot ++ "Gone") "Gone")⟩ := by
    simp [planSchema_object, Schema.referring, hresolve, hgone, Planned.fail, Except.map,
      Except.toOption]
  have hregister : planType dangling ["Broken"] "Outer" (.referring "Broken") =
      ⟨[("Outer", some (.delegate "Broken" false))], .ok ()⟩ := by
    simp [planType, planSchema_object, Schema.referring, hresolve, Planned.done, Except.map,
      Except.toOption, Keywords.isNullable, Keywords.bare]
  have hempty : Registry.empty.typeNames = [] := rfl
  have hnames : (Registry.empty.register [("Broken", none)]).typeNames = ["Broken"] := rfl
  simp only [Registry.session, danglingCalls, List.foldl_cons, List.foldl_nil, Call.step,
    Generation.plan, Generation.register, run_discard, run_absorb, hempty, hplan, hnames, hregister]

/-- A question that opens the planned type fails at the one that was not planned, and closes it again. -/
theorem inquiry_quiet_dangling :
    let r := Registry.session dangling danglingCalls
    ¬ (Call.isTypeEmpty "Outer").IsPlanning ∧
      (((Call.isTypeEmpty "Outer").step dangling).run r).1 =
        .error (.prematureEmptinessCheck "Broken") ∧
      r.Quiet (((Call.isTypeEmpty "Outer").step dangling).run r).2 := by
  intro r
  have hasks : ¬ (Call.isTypeEmpty "Outer").IsPlanning := fun h => by cases h
  have houter : r.plan? "Outer" = some (.delegate "Broken" false) := by
    show (Registry.session dangling danglingCalls).plan? "Outer" = _
    rw [session_dangling]
    rfl
  have hbroken : r.plan? "Broken" = none := by
    show (Registry.session dangling danglingCalls).plan? "Broken" = _
    rw [session_dangling]
    rfl
  have hidle : r.desk.mark "Outer" = .idle := by
    show (Registry.session dangling danglingCalls).desk.mark "Outer" = _
    rw [session_dangling]
    rfl
  have hwalk : Desk.Asks r r.desk (.type "Outer") (.error (.prematureEmptinessCheck "Broken")) _ :=
    .walked houter hidle rfl (.delegate (.unplanned hbroken))
  have hverdict := ((Desk.asks_iff r.start_confined).1 hwalk).1
  refine ⟨hasks, ?_, (inquiry_quiet dangling danglingCalls (.isTypeEmpty "Outer") hasks).1⟩
  rw [Call.step, run_discard, isTypeEmpty, run_search]
  show Except.map _ (Except.map _ (Question.verdict r [] (.type "Outer") r.start).1) = _
  rw [← hverdict]
  rfl

end DateReviver
