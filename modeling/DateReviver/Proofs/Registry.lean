import DateReviver.Proofs.Emptiness.Search
import DateReviver.Proofs.Generation
import DateReviver.Proofs.Planning.Translation

/-!
# How a registry changes

A registry is sound if the types that its plans name are registered and its verdicts are right.
There are two kinds of steps. Planning appends new types and leaves the plan of every older type as
it is, so no verdict about an older type is affected. A question, and with it all emission of
statements, leaves the types alone and adds verdicts that the search found. Both kinds keep a
registry sound, also where they fail.
-/

namespace DateReviver

open DateReviver.OpenApi

namespace Registry

/-- The plans name registered types, and the verdicts are right. -/
structure Sound (r : Registry) : Prop where
  knows : ∀ typeName plan, r.plan? typeName = some plan → r.Knows plan
  decides : r.Decides r.verdicts

theorem mem_typeNames_of_plan? {r : Registry} {typeName : String} {plan : Plan}
    (h : r.plan? typeName = some plan) : typeName ∈ r.typeNames :=
  mem_keys_of_plan? h

theorem sound_empty : Registry.empty.Sound := by
  refine ⟨?_, Decides.none_decided⟩
  intro typeName plan h
  simp [plan?, Registry.empty] at h

/-! ## Growing -/

/-- Every type keeps its place and its plan. -/
structure Extends (r r' : Registry) : Prop where
  typeNames : ∀ name ∈ r.typeNames, name ∈ r'.typeNames
  plan? : ∀ name ∈ r.typeNames, r'.plan? name = r.plan? name

namespace Extends

variable {r r' : Registry}

theorem some_plan? (h : r.Extends r') {typeName : String} {plan : Plan}
    (hplan : r.plan? typeName = some plan) : r'.plan? typeName = some plan := by
  rw [h.plan? typeName (mem_typeNames_of_plan? hplan)]
  exact hplan

theorem reaches (h : r.Extends r') {p q : Plan} (hreach : r.Reaches p q) : r'.Reaches p q := by
  refine Relation.ReflTransGen.mono (fun a b hstep => ?_) p q hreach
  cases hstep with
  | item => exact .item
  | value => exact .value
  | property hmem => exact .property hmem
  | unfold hplan => exact .unfold (h.some_plan? hplan)

theorem knows (h : r.Extends r') {plan : Plan} (hknows : r.Knows plan) : r'.Knows plan :=
  hknows.mono id h.typeNames

theorem decides (h : r.Extends r') {verdicts : OrderedMap Bool} (hdecides : r.Decides verdicts) :
    r'.Decides verdicts := by
  constructor
  · intro typeName htrue
    obtain ⟨plan, hplan, hwithin⟩ := hdecides.empty typeName htrue
    exact ⟨plan, h.some_plan? hplan, hwithin⟩
  · intro typeName hfalse
    obtain ⟨plan, hplan, nullable, hreach⟩ := hdecides.holdsDate typeName hfalse
    exact ⟨plan, h.some_plan? hplan, nullable, h.reaches hreach⟩

theorem of_methods (h : r'.methods = r.methods) : r.Extends r' := by
  constructor
  · intro name hname
    rw [Registry.typeNames, h]
    exact hname
  · intro name _
    rw [Registry.plan?, h]
    rfl

end Extends

section Register

variable {r : Registry} {found : List (String × Option Plan)} {doc : Document}
  {origin : String → Schema → Prop}

theorem entries_register (h : Discovers doc origin r.typeNames found) :
    (r.register found).methods.entries = r.methods.entries ++ found :=
  OrderedMap.entries_insertAll_of_fresh h.nodup h.fresh

theorem typeNames_register (h : Discovers doc origin r.typeNames found) :
    (r.register found).typeNames = r.typeNames ++ found.map Prod.fst := by
  rw [typeNames, OrderedMap.keys, entries_register h, List.map_append]
  rfl

theorem plan?_register_of_mem (h : Discovers doc origin r.typeNames found) {name : String}
    (hmem : name ∈ r.typeNames) : (r.register found).plan? name = r.plan? name := by
  rw [plan?, plan?, OrderedMap.get?, entries_register h, List.lookup_append]
  obtain ⟨own, hown⟩ := OrderedMap.mem_keys_iff.1 hmem
  rw [OrderedMap.get?] at hown ⊢
  rw [hown]
  rfl

/-- A found type has the plan that was found. -/
theorem plan?_register_of_found (h : Discovers doc origin r.typeNames found) {name : String}
    {own : Option Plan} (hmem : (name, own) ∈ found) :
    (r.register found).plan? name = own := by
  have hentry : (name, own) ∈ (r.register found).methods.entries := by
    rw [entries_register h]
    exact List.mem_append_right _ hmem
  rw [plan?, OrderedMap.mem_entries_iff.1 hentry]
  rfl

theorem extends_register (h : Discovers doc origin r.typeNames found) :
    r.Extends (r.register found) := by
  refine ⟨fun name hname => ?_, fun name hname => plan?_register_of_mem h hname⟩
  rw [typeNames_register h]
  exact List.mem_append_left _ hname

/-- A type with a plan is an old one or a found one. -/
theorem plan?_register_cases (h : Discovers doc origin r.typeNames found) {name : String}
    {plan : Plan} (hplan : (r.register found).plan? name = some plan) :
    r.plan? name = some plan ∨ (name, some plan) ∈ found := by
  have hmem := mem_typeNames_of_plan? hplan
  rw [typeNames_register h, List.mem_append] at hmem
  rcases hmem with hold | hnew
  · rw [plan?_register_of_mem h hold] at hplan
    exact .inl hplan
  · obtain ⟨⟨key, own⟩, hentry, rfl⟩ := List.mem_map.1 hnew
    rw [plan?_register_of_found h hentry] at hplan
    exact .inr (hplan ▸ hentry)

theorem Sound.register (hsound : r.Sound) (h : Discovers doc origin r.typeNames found) :
    (r.register found).Sound := by
  constructor
  · intro typeName plan hplan
    rcases plan?_register_cases h hplan with hold | hnew
    · exact (extends_register h).knows (hsound.knows typeName plan hold)
    · obtain ⟨_, _, _, hnames⟩ := h.planned typeName plan hnew
      refine Plan.Within.mono hnames id fun name hname => ?_
      rw [typeNames_register h, List.mem_append]
      exact hname
  · exact (extends_register h).decides hsound.decides

end Register

/-! ## Being asked -/

/-- A question leaves the types as they are, and adds right verdicts to right ones. -/
structure Consulted (r r' : Registry) : Prop where
  methods : r'.methods = r.methods
  decides : r.Decides r.verdicts → r'.Decides r'.verdicts

instance : IsPreorder Registry Consulted where
  refl _ := ⟨rfl, id⟩
  trans _ _ _ h₁ h₂ := ⟨h₂.methods.trans h₁.methods, fun h => h₂.decides (h₁.decides h)⟩

namespace Consulted

variable {r r' : Registry} (h : r.Consulted r')

include h

theorem typeNames : r'.typeNames = r.typeNames := by
  rw [Registry.typeNames, h.methods]
  rfl

theorem plan? (typeName : String) : r'.plan? typeName = r.plan? typeName := by
  rw [Registry.plan?, h.methods]
  rfl

theorem sound (hsound : r.Sound) : r'.Sound := by
  refine ⟨?_, h.decides hsound.decides⟩
  intro typeName plan hplan
  rw [h.plan?] at hplan
  exact (Extends.of_methods h.methods).knows (hsound.knows typeName plan hplan)

end Consulted

end Registry

namespace Search

variable {r : Registry} {plan : Plan} {s : Search}
  {answer : Except GenerationError Verdict × Search}

/-- Whatever the answer, what is settled is right. -/
theorem Answers.decides {stack : List String} (h : Answers r stack plan s answer) :
    r.Decides answer.2.settled := by
  obtain ⟨result, s'⟩ := answer
  cases result with
  | error e => exact h.1
  | ok verdict =>
      cases verdict with
      | holdsDate => exact h.1
      | empty pending => exact h.1.decides

end Search

/-! ## Questions and emission -/

namespace Generation

open Registry

theorem search_consults
    {question : Registry → Search → Except GenerationError Verdict × Search} {plan : Plan}
    (h : ∀ r s, r.Decides s.settled → s.Below [] → Search.Answers r [] plan s (question r s)) :
    Changes Consulted (search question) := by
  intro r
  have hmethods : ((search question).run r).2.methods = r.methods := by
    rw [run_search]
  refine ⟨hmethods, fun hdecides => (Extends.of_methods hmethods).decides ?_⟩
  have hanswer := h r ⟨r.verdicts, [], [], r.journal⟩ hdecides (by simp [Search.Below])
  rw [run_search]
  exact hanswer.decides

theorem isTypeEmpty_consults (typeName : String) : Changes Consulted (isTypeEmpty typeName) :=
  search_consults fun r s hdecides hbelow =>
    typeVerdict_answers r [] typeName false s hdecides hbelow

theorem isPlanEmpty_consults (plan : Plan) : Changes Consulted (isPlanEmpty plan) :=
  search_consults fun r s hdecides hbelow => planVerdict_answers r [] plan s hdecides hbelow

theorem note_consults (n : Note) : Changes Consulted (note n) :=
  fun r => ⟨rfl, fun h => (Extends.of_methods rfl : r.Extends (r.record n)).decides h⟩

end Generation

end DateReviver
