import DateReviver.Proofs.Quiescence

/-!
# What one question costs

A type that was opened may be closed without a verdict: it leans on a type further down, or what it
leaned on turned out to hold dates. Still no question opens a type twice. As long as no date is met,
whatever was opened is settled, open or leaning, and the search passes by all of these; and once a date
or an error is met, the types that are open are closed one after the other and none is opened any more.
So a question walks the plan of each type at most once, and when it finds no date it settles all types
that it has come to.
-/

namespace DateReviver

open DateReviver.OpenApi Generation

theorem Registry.stage?_eq_built_iff {r : Registry} {typeName : String} :
    r.stage? typeName = some .built ↔
      (∃ plan, r.plan? typeName = some plan) ∧ r.verdicts.get? typeName = none := by
  rw [stage?, plan?]
  rcases r.methods.get? typeName with _ | _ | plan
  · simp
  · simp
  · cases r.verdicts.get? typeName <;> simp

namespace Search

/-- The account of a search that answers one question: the types that it has opened are distinct and
were built before; it keeps the verdicts that were there, and has come to others about the opened types
only; and only opened types lean. -/
structure Accounts (r : Registry) (s : Search) : Prop where
  nodup : s.walked.Nodup
  built : ∀ name ∈ s.walked, r.stage? name = some .built
  kept : ∀ name empty, r.verdicts.get? name = some empty → s.settled.get? name = some empty
  settled : ∀ name empty, s.settled.get? name = some empty →
    r.verdicts.get? name = some empty ∨ name ∈ s.walked
  leaning : ∀ entry ∈ s.leaning, entry.1 ∈ s.walked

/-- Every type that was opened is settled, still open or leaning. -/
def Complete (s : Search) (stack : List String) : Prop :=
  ∀ name ∈ s.walked, (∃ empty, s.settled.get? name = some empty) ∨ name ∈ stack ∨
    ∃ depth, (name, depth) ∈ s.leaning

variable {r : Registry} {stack : List String} {s : Search} {typeName name : String} {plan : Plan}
  {answer : Except GenerationError Verdict × Search}

/-! ## Opening a type -/

theorem Complete.not_mem_walked (h : s.Complete stack) (hsettled : s.settled.get? typeName = none)
    (hnew : typeName ∉ stack) (hleaning : s.leaning.lookup typeName = none) :
    typeName ∉ s.walked := by
  intro hwalked
  rcases h typeName hwalked with ⟨empty, hdone⟩ | hopen | ⟨depth, hmem⟩
  · rw [hsettled] at hdone
    cases hdone
  · exact hnew hopen
  · have hne := List.lookup_eq_none_iff.1 hleaning _ hmem
    simp at hne

theorem Complete.enter (h : s.Complete stack) : (s.enter typeName).Complete (typeName :: stack) := by
  intro name hmem
  rcases List.mem_cons.1 hmem with rfl | hwalked
  · exact .inr (.inl List.mem_cons_self)
  · rcases h name hwalked with hdone | hopen | hleaning
    · exact .inl hdone
    · exact .inr (.inl (List.mem_cons_of_mem _ hopen))
    · exact .inr (.inr hleaning)

theorem Accounts.enter (h : Accounts r s) (hplan : r.plan? typeName = some plan)
    (hsettled : s.settled.get? typeName = none) (hfirst : typeName ∉ s.walked) :
    Accounts r (s.enter typeName) := by
  have hundecided : r.verdicts.get? typeName = none := by
    refine Option.eq_none_iff_forall_ne_some.2 fun empty hverdict => ?_
    rw [h.kept typeName empty hverdict] at hsettled
    cases hsettled
  constructor
  · exact List.nodup_cons.2 ⟨hfirst, h.nodup⟩
  · exact List.forall_mem_cons.2
      ⟨Registry.stage?_eq_built_iff.2 ⟨⟨plan, hplan⟩, hundecided⟩, h.built⟩
  · exact h.kept
  · intro name empty hname
    exact (h.settled name empty hname).imp_right (List.mem_cons_of_mem _)
  · exact fun entry hmem => List.mem_cons_of_mem _ (h.leaning entry hmem)

/-! ## Closing it -/

theorem walked_conclude {depth : Nat} :
    (conclude depth typeName answer).2.walked = answer.2.walked := by
  obtain ⟨result, s⟩ := answer
  rcases result with e | (_ | (_ | pending))
  · rfl
  · rfl
  · rfl
  · rw [conclude]
    split <;> rfl

/-- A verdict that is there after a type is closed was there before, or is about the type itself or what
leaned on it. -/
theorem settled_conclude {depth : Nat} {empty : Bool}
    (h : (conclude depth typeName answer).2.settled.get? name = some empty) :
    answer.2.settled.get? name = some empty ∨ name = typeName ∨ name ∈ answer.2.released depth := by
  have hsettle {s : Search} {own : Bool}
      (h : (s.settle depth typeName own).settled.get? name = some empty) :
      s.settled.get? name = some empty ∨ name = typeName ∨ name ∈ s.released depth := by
    rw [get?_settle] at h
    split at h
    · exact .inr (.inl ‹_›)
    · split at h
      · rename_i hreleased
        exact .inr (.inr hreleased.2)
      · exact .inl h
  obtain ⟨result, s⟩ := answer
  rcases result with e | (_ | (_ | pending))
  · exact .inl h
  · exact hsettle h
  · exact hsettle h
  · rw [conclude] at h
    split at h
    · exact .inl h
    · exact hsettle h

/-- What leans after a type is closed leaned before, or is the type itself. -/
theorem leaning_conclude {depth : Nat} {entry : String × Nat}
    (h : entry ∈ (conclude depth typeName answer).2.leaning) :
    entry.1 = typeName ∨ ∃ old ∈ answer.2.leaning, entry.1 = old.1 := by
  obtain ⟨result, s⟩ := answer
  rcases result with e | (_ | (_ | pending))
  · exact .inr ⟨entry, (mem_release_leaning.1 h).1, rfl⟩
  · exact .inr ⟨entry, (mem_settle_leaning.1 h).1, rfl⟩
  · exact .inr ⟨entry, (mem_settle_leaning.1 h).1, rfl⟩
  · rw [conclude] at h
    split at h
    · rcases List.mem_cons.1 h with rfl | hmoved
      · exact .inl rfl
      · obtain ⟨old, hold, rfl⟩ := List.mem_map.1 hmoved
        refine .inr ⟨old, hold, ?_⟩
        split <;> rfl
    · exact .inr ⟨entry, (mem_settle_leaning.1 h).1, rfl⟩

/-- However the walk of its plan has ended, the account is right when the type is closed. -/
theorem Accounts.conclude (h : Accounts r answer.2) (hconfined : answer.2.Confined (typeName :: stack))
    (hnew : typeName ∉ stack) (hwalked : typeName ∈ answer.2.walked) :
    Accounts r (Search.conclude stack.length typeName answer).2 := by
  have hkeeps := (hconfined.conclude hnew).2
  constructor
  · rw [walked_conclude]
    exact h.nodup
  · rw [walked_conclude]
    exact h.built
  · exact fun name empty hverdict => hkeeps name empty (h.kept name empty hverdict)
  · intro name empty hname
    rw [walked_conclude]
    rcases settled_conclude hname with hold | rfl | hreleased
    · exact h.settled name empty hold
    · exact .inr hwalked
    · obtain ⟨depth, hmem, _⟩ := mem_released.1 hreleased
      exact .inr (h.leaning _ hmem)
  · intro entry hmem
    rw [walked_conclude]
    rcases leaning_conclude hmem with heq | ⟨old, hold, heq⟩
    · exact heq ▸ hwalked
    · exact heq ▸ h.leaning old hold

theorem Complete.settle (h : s.Complete (typeName :: stack))
    (hconfined : s.Confined (typeName :: stack)) :
    (s.settle stack.length typeName true).Complete stack := by
  intro name hmem
  rcases h name hmem with ⟨empty, hdone⟩ | hopen | ⟨depth, hleaning⟩
  · exact .inl ⟨empty, hconfined.keeps_settle true name empty hdone⟩
  · rcases List.mem_cons.1 hopen with rfl | hopen
    · exact .inl ⟨true, by rw [get?_settle, if_pos rfl]⟩
    · exact .inr (.inl hopen)
  · by_cases hlt : depth < stack.length
    · exact .inr (.inr ⟨depth, mem_settle_leaning.2 ⟨hleaning, hlt⟩⟩)
    · have hreleased : name ∈ s.released stack.length :=
        mem_released.2 ⟨depth, hleaning, Nat.le_of_not_lt hlt⟩
      refine .inl ⟨true, ?_⟩
      rw [get?_settle]
      split
      · rfl
      · rw [if_pos ⟨rfl, hreleased⟩]

theorem Complete.defer {pending : Nat} (h : s.Complete (typeName :: stack)) :
    (s.defer stack.length typeName pending).Complete stack := by
  intro name hmem
  rcases h name hmem with hdone | hopen | ⟨depth, hleaning⟩
  · exact .inl hdone
  · rcases List.mem_cons.1 hopen with rfl | hopen
    · exact .inr (.inr ⟨pending, List.mem_cons_self⟩)
    · exact .inr (.inl hopen)
  · have hmoved := List.mem_map_of_mem
      (f := fun entry => if stack.length ≤ entry.2 then (entry.1, pending) else entry) hleaning
    refine .inr (.inr ?_)
    by_cases hle : stack.length ≤ depth
    · exact ⟨pending, List.mem_cons_of_mem _ (by simpa [hle] using hmoved)⟩
    · exact ⟨depth, List.mem_cons_of_mem _ (by simpa [hle] using hmoved)⟩

/-- Nothing that was opened is lost while no date is met. -/
theorem Complete.conclude {pending : Option Nat}
    (h : ∀ inner, answer.1 = .ok (.empty inner) → answer.2.Complete (typeName :: stack))
    (hconfined : answer.2.Confined (typeName :: stack))
    (hempty : (Search.conclude stack.length typeName answer).1 = .ok (.empty pending)) :
    (Search.conclude stack.length typeName answer).2.Complete stack := by
  obtain ⟨result, s⟩ := answer
  rcases result with e | (_ | (_ | inner))
  · cases hempty
  · cases hempty
  · exact (h none rfl).settle hconfined
  · rw [Search.conclude]
    split
    · exact (h (some inner) rfl).defer
    · exact (h (some inner) rfl).settle hconfined

/-! ## The whole search -/

/-- A walk keeps the account right, and loses no type that was opened if it meets no date. -/
theorem accounts_rule (r : Registry) : Rule r fun stack s answer =>
    s.Confined stack → Accounts r s → s.Complete stack →
      Accounts r answer.2 ∧ s.walked ⊆ answer.2.walked ∧
        ∀ pending, answer.1 = .ok (.empty pending) → answer.2.Complete stack := by
  constructor
  case still =>
    intro stack s result _ haccounts hcomplete
    exact ⟨haccounts, fun _ hmem => hmem, fun _ _ => hcomplete⟩
  case opened =>
    intro stack s typeName plan hplan hsettled hnew hleaning hwalk hconfined haccounts hcomplete
    have hfirst := hcomplete.not_mem_walked hsettled hnew hleaning
    have hentered := hconfined.enter hsettled hleaning
    obtain ⟨hafter, hgrows, hlost⟩ :=
      hwalk hentered (haccounts.enter hplan hsettled hfirst) hcomplete.enter
    have hclosing := (planVerdict_confined r hentered plan).1
    refine ⟨hafter.conclude hclosing hnew (hgrows List.mem_cons_self), ?_, ?_⟩
    · rw [walked_conclude]
      exact fun name hmem => hgrows (List.mem_cons_of_mem _ hmem)
    · exact fun pending hempty => Complete.conclude hlost hclosing hempty
  case further =>
    intro stack s pending s' plan rest hfirst hown hothers hconfined haccounts hcomplete
    obtain ⟨hmiddle, hgrows, hlost⟩ := hown hconfined haccounts hcomplete
    have hbetween := (planVerdict_confined r hconfined plan).1
    rw [hfirst] at hbetween
    obtain ⟨hafter, hmore, hkept⟩ := hothers hbetween hmiddle (hlost pending rfl)
    refine ⟨hafter, fun name hmem => hmore (hgrows hmem), fun joined hjoined => ?_⟩
    obtain ⟨others, hempty⟩ := exists_of_joinEmpty_eq_empty hjoined
    exact hkept others hempty

end Search

open Search

/-- The types that a question opens, the latest first. -/
def Question.opens (question : Question) (r : Registry) : List String :=
  (question.verdict r [] r.start).2.walked

section Calls

variable {r after : Registry} {typeName name : String} {plan : Plan} {nullable : Bool}

theorem Registry.start_accounts (r : Registry) : Accounts r r.start := by
  constructor
  · exact List.nodup_nil
  · intro name hmem
    cases hmem
  · exact fun name empty hverdict => hverdict
  · exact fun name empty hverdict => .inl hverdict
  · intro entry hmem
    cases hmem

theorem Question.accounts (question : Question) (r : Registry) :
    Accounts r (question.verdict r [] r.start).2 := by
  have hcomplete : r.start.Complete [] := fun name hmem => by cases hmem
  exact ((accounts_rule r).verdict question [] r.start r.start_confined r.start_accounts hcomplete).1

/-- There are no more opened types than types. -/
theorem Search.Accounts.length_walked_le {s : Search} (h : Accounts r s) :
    s.walked.length ≤ r.methods.size := by
  have hsubset : s.walked ⊆ r.methods.keys := by
    intro name hmem
    obtain ⟨⟨plan, hplan⟩, _⟩ := Registry.stage?_eq_built_iff.1 (h.built name hmem)
    exact Registry.mem_keys_of_plan? hplan
  exact OrderedMap.length_le_size h.nodup hsubset

/-- A type that is not opened stays as it is. -/
theorem Question.stage?_of_not_opened (question : Question) (hnot : name ∉ question.opens r) :
    ((question.call.run r).2).stage? name = r.stage? name := by
  have haccounts := question.accounts r
  have hverdicts : (question.call.run r).2.verdicts = (question.verdict r [] r.start).2.settled := by
    rw [Question.call, run_search]
    rfl
  have hmethods : (question.call.run r).2.methods = r.methods := by
    rw [Question.call, run_search]
  have hsame : (question.verdict r [] r.start).2.settled.get? name = r.verdicts.get? name := by
    refine Option.ext fun empty => ⟨fun hsettled => ?_, haccounts.kept name empty⟩
    exact (haccounts.settled name empty hsettled).resolve_right hnot
  rw [Registry.stage?, Registry.stage?, hmethods, hverdicts, hsame]

/-! ## What is settled in the end -/

theorem Search.settled_conclude_zero {answer : Except GenerationError Verdict × Search}
    {verdict : Verdict} {s : Search} (h : conclude 0 typeName answer = (.ok verdict, s)) :
    s.settled.get? typeName = some verdict.isEmpty := by
  obtain ⟨result, s'⟩ := answer
  rcases result with e | (_ | (_ | pending))
  · cases h
  · cases h
    rw [get?_settle, if_pos rfl]
    rfl
  · cases h
    rw [get?_settle, if_pos rfl]
    rfl
  · rw [conclude, if_neg (Nat.not_lt_zero pending)] at h
    cases h
    rw [get?_settle, if_pos rfl]
    rfl

/-- Where no type is open or leaning, the type that is asked about is settled by the answer. -/
theorem settled_typeVerdict {s s' : Search} {verdict : Verdict} (hleaning : s.leaning = [])
    (h : typeVerdict r [] typeName s = (.ok verdict, s')) :
    s'.settled.get? typeName = some verdict.isEmpty := by
  rw [typeVerdict] at h
  split at h
  · cases h
  · split at h
    · rename_i hsettled
      cases h
      exact hsettled
    · rename_i hsettled
      cases h
      exact hsettled
    · split at h
      · rename_i hopen
        cases hopen
      · rw [hleaning] at h
        exact settled_conclude_zero h

theorem stage?_of_isTypeEmpty {empty : Bool}
    (hrun : (isTypeEmpty typeName).run r = (.ok empty, after)) :
    after.stage? typeName = some (.settled empty) := by
  have hplan := plan?_of_isTypeEmpty hrun
  rw [isTypeEmpty, run_search] at hrun
  rcases hverdict : typeVerdict r [] typeName ⟨r.verdicts, [], [], r.journal⟩ with ⟨e | verdict, s⟩
  · rw [hverdict] at hrun
    cases hrun
  · rw [hverdict] at hrun
    cases hrun
    exact Registry.stage?_eq_settled_iff.2 ⟨hplan, settled_typeVerdict rfl hverdict⟩

/-- From a plan that names empty types only and no date, empty types only are reached. -/
theorem Registry.Decides.settled_of_reaches {verdicts : OrderedMap Bool} (h : r.Decides verdicts)
    (hwithin : plan.Within False fun other => verdicts.get? other = some true)
    (hreach : r.Reaches plan (.delegate name nullable)) : verdicts.get? name = some true := by
  cases hwithin.dateless_reaches h.empty hreach with
  | delegate hempty => exact hempty

/-- A search that finds no date settles all types that are reached. -/
theorem stage?_of_search {question : Registry → Search → Except GenerationError Verdict × Search}
    (hsound : r.Sound)
    (h : ∀ r s, r.Decides s.settled → s.Below [] → Search.Answers r [] plan s (question r s))
    (hrun : (search question).run r = (.ok true, after))
    (hreach : r.Reaches plan (.delegate name nullable)) :
    after.stage? name = some (.settled true) := by
  have hafter : after.Sound := by
    have hconsulted := search_consults h r
    rw [hrun] at hconsulted
    exact hconsulted.sound hsound
  have hbelow : Search.Below ⟨r.verdicts, [], [], r.journal⟩ [] := by simp [Search.Below]
  have hanswer := h r ⟨r.verdicts, [], [], r.journal⟩ hsound.decides hbelow
  rw [run_search] at hrun
  rcases hquestion : question r ⟨r.verdicts, [], [], r.journal⟩ with ⟨e | (_ | pending), s⟩
  · rw [hquestion] at hrun
    cases hrun
  · rw [hquestion] at hrun
    cases hrun
  · rw [hquestion] at hrun hanswer
    cases hrun
    have hsettled : s.settled.get? name = some true :=
      hanswer.1.decides.settled_of_reaches (hanswer.within_settled hbelow) hreach
    exact hafter.stage?_of_verdict hsettled

end Calls

/-- A question that is put between any calls on a registry, however the types refer to one another,
opens no type twice, hence no more types than there are. It opens built types only, and leaves all
others as they are. If it answers about a type, the type is settled by the answer afterwards; and if it
finds no date, all types are settled as empty that are reached from what was asked about. -/
theorem question_economical (calls : List (Document × Call)) :
    let r := Registry.lifetime calls
    (∀ typeName, isTypeEmpty typeName = (Question.type typeName).call) ∧
    (∀ plan, isPlanEmpty plan = (Question.plan plan).call) ∧
    (∀ question : Question, (question.opens r).Nodup ∧ (question.opens r).length ≤ r.methods.size ∧
      (∀ name ∈ question.opens r, r.stage? name = some .built) ∧
      ∀ name, name ∉ question.opens r → (question.call.run r).2.stage? name = r.stage? name) ∧
    (∀ typeName empty after, (isTypeEmpty typeName).run r = (.ok empty, after) →
      after.stage? typeName = some (.settled empty)) ∧
    (∀ typeName after, (isTypeEmpty typeName).run r = (.ok true, after) → ∀ name nullable,
      r.Reaches (.delegate typeName false) (.delegate name nullable) →
        after.stage? name = some (.settled true)) ∧
    ∀ plan after, (isPlanEmpty plan).run r = (.ok true, after) → ∀ name nullable,
      r.Reaches plan (.delegate name nullable) → after.stage? name = some (.settled true) := by
  intro r
  have hsound : r.Sound := Registry.lifetime_sound calls
  refine ⟨fun _ => rfl, fun _ => rfl, fun question => ?_, fun _ _ _ => stage?_of_isTypeEmpty,
    fun typeName after hrun name nullable => ?_, fun plan after hrun name nullable => ?_⟩
  · have haccounts := question.accounts r
    exact ⟨haccounts.nodup, haccounts.length_walked_le, haccounts.built,
      fun name => question.stage?_of_not_opened⟩
  · exact stage?_of_search hsound
      (fun r s hdecides hbelow => typeVerdict_answers r [] typeName false s hdecides hbelow) hrun
  · exact stage?_of_search hsound
      (fun r s hdecides hbelow => planVerdict_answers r [] plan s hdecides hbelow) hrun

end DateReviver
