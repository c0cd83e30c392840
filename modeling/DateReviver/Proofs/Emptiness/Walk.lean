import DateReviver.Emptiness

/-!
# Walks of the emptiness search

A search that is asked about a type opens it and walks its plan; it walks properties one after the
other, as long as they are empty. So a rule about the search before and after a walk holds of all walks
if it passes from the plan of a type that is opened to the type, and from the first of some properties
to the others.
-/

namespace DateReviver

/-- What a search is asked about. -/
inductive Question where
  | type (typeName : String)
  | plan (plan : Plan)
  | properties (properties : List (String × Plan))

/-- The search that answers a question. -/
def Question.verdict (r : Registry) (stack : List String) :
    Question → Search → Except GenerationError Verdict × Search
  | .type typeName => typeVerdict r stack typeName
  | .plan asked => planVerdict r stack asked
  | .properties asked => propertiesVerdict r stack asked

/-- A question as a call on a registry. -/
def Question.call (question : Question) : Generation Bool :=
  Generation.search fun r => question.verdict r []

/-- The answer about properties, of which the first was found empty, leaning on `pending`. -/
def joinEmpty (pending : Option Nat) :
    Except GenerationError Verdict → Except GenerationError Verdict
  | .ok (.empty others) => .ok (.empty (Option.merge min pending others))
  | answer => answer

variable {r : Registry} {stack : List String} {s s' : Search} {typeName name : String} {plan : Plan}
  {rest : List (String × Plan)}

theorem exists_of_joinEmpty_eq_empty {pending joined : Option Nat}
    {answer : Except GenerationError Verdict} (h : joinEmpty pending answer = .ok (.empty joined)) :
    ∃ others, answer = .ok (.empty others) := by
  rcases answer with e | (_ | others)
  · cases h
  · cases h
  · exact ⟨others, rfl⟩

theorem propertiesVerdict_cons_of_empty {pending : Option Nat}
    (h : planVerdict r stack plan s = (.ok (.empty pending), s')) :
    propertiesVerdict r stack ((name, plan) :: rest) s =
      (joinEmpty pending (propertiesVerdict r stack rest s').1,
        (propertiesVerdict r stack rest s').2) := by
  rw [propertiesVerdict, h]
  dsimp only
  rcases propertiesVerdict r stack rest s' with ⟨e | (_ | others), s''⟩
  · rfl
  · rfl
  · rfl

theorem propertiesVerdict_cons_of_error {e : GenerationError}
    (h : planVerdict r stack plan s = (.error e, s')) :
    propertiesVerdict r stack ((name, plan) :: rest) s = (.error e, s') := by
  rw [propertiesVerdict, h]

theorem propertiesVerdict_cons_of_holdsDate
    (h : planVerdict r stack plan s = (.ok .holdsDate, s')) :
    propertiesVerdict r stack ((name, plan) :: rest) s = (.ok .holdsDate, s') := by
  rw [propertiesVerdict, h]

namespace Search

theorem not_mem_of_depth? (h : depth? stack typeName = none) : typeName ∉ stack := by
  have hcontains := contains_eq_false_of_depth? h
  simpa using hcontains

/-- A rule about a search under open types and what a walk ends with: it holds where nothing is walked,
and passes through the types that are opened and through properties. -/
structure Rule (r : Registry)
    (holds : List String → Search → Except GenerationError Verdict × Search → Prop) : Prop where
  still : ∀ stack s result, holds stack s (result, s)
  opened : ∀ {stack s typeName plan}, r.plan? typeName = some plan →
    s.settled.get? typeName = none → typeName ∉ stack → s.leaning.lookup typeName = none →
    holds (typeName :: stack) (s.enter typeName)
      (planVerdict r (typeName :: stack) plan (s.enter typeName)) →
    holds stack s (conclude stack.length typeName
      (planVerdict r (typeName :: stack) plan (s.enter typeName)))
  further : ∀ {stack s pending s' plan rest},
    planVerdict r stack plan s = (.ok (.empty pending), s') →
    holds stack s (.ok (.empty pending), s') →
    holds stack s' (propertiesVerdict r stack rest s') →
    holds stack s (joinEmpty pending (propertiesVerdict r stack rest s').1,
      (propertiesVerdict r stack rest s').2)

namespace Rule

variable {holds : List String → Search → Except GenerationError Verdict × Search → Prop}

mutual

theorem typeVerdict (h : Rule r holds) (stack : List String) (typeName : String) (s : Search) :
    holds stack s (DateReviver.typeVerdict r stack typeName s) := by
  rw [DateReviver.typeVerdict]
  split
  · exact h.still stack s _
  · rename_i plan hplan
    split
    · exact h.still stack s _
    · exact h.still stack s _
    · rename_i hsettled
      split
      · exact h.still stack s _
      · rename_i hopen
        split
        · exact h.still stack s _
        · rename_i hleaning
          have hwalk := h.planVerdict (typeName :: stack) plan (s.enter typeName)
          exact h.opened hplan hsettled (not_mem_of_depth? hopen) hleaning hwalk
termination_by (r.methods.countOutside stack, 0)
decreasing_by
  exact Prod.Lex.left _ _ (OrderedMap.countOutside_cons_lt
    (Registry.mem_keys_of_plan? (by assumption)) (contains_eq_false_of_depth? (by assumption)))

theorem planVerdict (h : Rule r holds) (stack : List String) (plan : Plan) (s : Search) :
    holds stack s (DateReviver.planVerdict r stack plan s) := by
  cases plan with
  | primitive =>
      rw [DateReviver.planVerdict]
      exact h.still stack s _
  | date nullable =>
      rw [DateReviver.planVerdict]
      exact h.still stack s _
  | delegate typeName nullable =>
      rw [DateReviver.planVerdict]
      exact h.typeVerdict stack typeName s
  | array item nullable =>
      rw [DateReviver.planVerdict]
      exact h.planVerdict stack item s
  | map values nullable =>
      rw [DateReviver.planVerdict]
      exact h.planVerdict stack values s
  | object properties nullable =>
      rw [DateReviver.planVerdict]
      exact h.propertiesVerdict stack properties s
termination_by (r.methods.countOutside stack, sizeOf plan)

theorem propertiesVerdict (h : Rule r holds) (stack : List String)
    (properties : List (String × Plan)) (s : Search) :
    holds stack s (DateReviver.propertiesVerdict r stack properties s) := by
  cases properties with
  | nil =>
      rw [DateReviver.propertiesVerdict]
      exact h.still stack s _
  | cons property rest =>
      obtain ⟨name, plan⟩ := property
      have hown := h.planVerdict stack plan s
      rcases hfirst : DateReviver.planVerdict r stack plan s with ⟨e | (_ | pending), s'⟩
      · rw [propertiesVerdict_cons_of_error hfirst, ← hfirst]
        exact hown
      · rw [propertiesVerdict_cons_of_holdsDate hfirst, ← hfirst]
        exact hown
      · rw [propertiesVerdict_cons_of_empty hfirst]
        rw [hfirst] at hown
        exact h.further hfirst hown (h.propertiesVerdict stack rest s')
termination_by (r.methods.countOutside stack, sizeOf properties)

end

/-- A rule holds of the walk that answers a question. -/
theorem verdict (h : Rule r holds) (question : Question) (stack : List String) (s : Search) :
    holds stack s (question.verdict r stack s) := by
  cases question with
  | type typeName => exact h.typeVerdict stack typeName s
  | plan plan => exact h.planVerdict stack plan s
  | properties properties => exact h.propertiesVerdict stack properties s

end Rule

end Search

end DateReviver
