import DateReviver.Proofs.Emission.Decision

/-!
# Where delegations lead

A type may be nothing but a delegation to another type, which may be one as well. Such a chain comes to
a date, or to a type with any other plan or none, or it runs into a circle, and only one of these. Those
that come to a date are found by following as many steps as there are types: on a chain to a date no
type comes twice. The types on it need no function, and none of them is empty.
-/

namespace DateReviver

open DateReviver.OpenApi Generation Relation

namespace Registry

/-- The whole plan of a type is a delegation to another. -/
def Delegates (r : Registry) (typeName target : String) : Prop :=
  ∃ nullable, r.plan? typeName = some (.delegate target nullable)

/-- The types from a type to a date, through delegations alone, each with whether null is admitted by
its delegation or, at the end, by the date. -/
inductive AliasLinks (r : Registry) : String → List (String × Bool) → Prop
  | date {typeName : String} {nullable : Bool} (hplan : r.plan? typeName = some (.date nullable)) :
      AliasLinks r typeName [(typeName, nullable)]
  | delegate {typeName target : String} {nullable : Bool} {links : List (String × Bool)}
      (hplan : r.plan? typeName = some (.delegate target nullable))
      (h : AliasLinks r target links) : AliasLinks r typeName ((typeName, nullable) :: links)

/-- A type from which neither a date nor a further delegation follows: its planning failed, or it has
a plan of another kind. -/
structure EndsOtherwise (r : Registry) (typeName : String) : Prop where
  noDate : ∀ nullable, r.plan? typeName ≠ some (.date nullable)
  noDelegate : ∀ target, ¬ r.Delegates typeName target

variable {r : Registry} {typeName target last : String} {nullable : Bool} {chain : List String}

/-! ## Chains to a date -/

theorem AliasLinks.aliasChain {links : List (String × Bool)} (h : r.AliasLinks typeName links) :
    r.AliasChain typeName (links.map Prod.fst) := by
  induction h with
  | date hplan => exact .date hplan
  | delegate hplan _ ih => exact .delegate hplan ih

/-- Null may stand in the place of the date if one of the links admits it. -/
theorem namesDate_iff_links : r.NamesDate typeName nullable ↔
    ∃ links, r.AliasLinks typeName links ∧ nullable = links.any Prod.snd := by
  constructor
  · intro h
    induction h with
    | date hplan => exact ⟨_, .date hplan, by simp⟩
    | delegate hplan _ ih =>
        obtain ⟨links, hlinks, rfl⟩ := ih
        exact ⟨_, .delegate hplan hlinks, by simp⟩
  · rintro ⟨links, hlinks, rfl⟩
    induction hlinks with
    | date hplan => simpa using NamesDate.date hplan
    | delegate hplan _ ih => simpa using NamesDate.delegate hplan ih

/-- Following delegations further than there are types finds no more. -/
theorem aliasWithin_of_size_le {steps : Nat} (hsteps : r.methods.size ≤ steps) :
    r.aliasWithin steps false typeName = r.dateAlias? typeName := by
  ext nullable
  rw [dateAlias?_eq_some_iff]
  constructor
  · intro h
    obtain ⟨inner, hinner, rfl⟩ := namesDate_of_aliasWithin h
    exact hinner
  · intro h
    obtain ⟨chain, hchain⟩ := h.exists_chain
    obtain ⟨found, hfound⟩ := hchain.aliasWithin (hchain.length_le.trans hsteps) false
    obtain ⟨inner, hinner, rfl⟩ := namesDate_of_aliasWithin hfound
    rw [hfound, h.unique hinner]

/-! ## Chains that come to no date -/

/-- A delegation leaves the rest of the chain. -/
theorem AliasChain.of_delegates (h : r.AliasChain typeName chain)
    (hstep : r.Delegates typeName target) :
    ∃ tail, r.AliasChain target tail ∧ tail.length < chain.length := by
  obtain ⟨nullable, hplan⟩ := hstep
  cases h with
  | date hdate =>
      rw [hplan] at hdate
      cases hdate
  | delegate hdelegate hrest =>
      rw [hplan] at hdelegate
      cases hdelegate
      exact ⟨_, hrest, Nat.lt_succ_self _⟩

theorem AliasChain.of_transGen (h : r.AliasChain typeName chain)
    (hsteps : TransGen r.Delegates typeName target) :
    ∃ tail, r.AliasChain target tail ∧ tail.length < chain.length := by
  induction hsteps with
  | single hstep => exact h.of_delegates hstep
  | tail _ hstep ih =>
      obtain ⟨middle, hmiddle, hshorter⟩ := ih
      obtain ⟨tail, htail, hlast⟩ := hmiddle.of_delegates hstep
      exact ⟨tail, htail, hlast.trans hshorter⟩

theorem AliasChain.of_reach {tail : List String} (hreach : ReflTransGen r.Delegates typeName last)
    (h : r.AliasChain last tail) : ∃ chain, r.AliasChain typeName chain := by
  induction hreach using ReflTransGen.head_induction_on with
  | refl => exact ⟨tail, h⟩
  | head hstep _ ih =>
      obtain ⟨nullable, hplan⟩ := hstep
      obtain ⟨chain, hchain⟩ := ih
      exact ⟨_, .delegate hplan hchain⟩

/-- No chain to a date comes to a circle: the types on a circle would have chains of two lengths. -/
theorem AliasChain.not_circle (h : r.AliasChain typeName chain) :
    ¬ TransGen r.Delegates typeName typeName := by
  intro hcircle
  obtain ⟨tail, htail, hshorter⟩ := h.of_transGen hcircle
  rw [htail.unique h] at hshorter
  exact lt_irrefl _ hshorter

theorem AliasChain.not_endsOtherwise (h : r.AliasChain typeName chain) :
    ¬ r.EndsOtherwise typeName := by
  intro hends
  cases h with
  | date hplan => exact hends.noDate _ hplan
  | delegate hplan _ => exact hends.noDelegate _ ⟨_, hplan⟩

/-- Delegations come to a type that delegates no further, or to a circle. The types left behind are
used up one by one, since each of them has a plan. -/
theorem exists_last_or_circle {typeName : String} (behind : List String)
    (h : ∀ name ∈ behind, TransGen r.Delegates name typeName) :
    ∃ last, ReflTransGen r.Delegates typeName last ∧
      ((∀ target, ¬ r.Delegates last target) ∨ TransGen r.Delegates last last) := by
  by_cases hends : ∀ target, ¬ r.Delegates typeName target
  · exact ⟨typeName, .refl, .inl hends⟩
  · by_cases hbehind : typeName ∈ behind
    · exact ⟨typeName, .refl, .inr (h typeName hbehind)⟩
    · obtain ⟨target, hstep⟩ := not_forall_not.1 hends
      have hplan := hstep.choose_spec
      have hnext : ∀ name ∈ typeName :: behind, TransGen r.Delegates name target :=
        List.forall_mem_cons.2 ⟨.single hstep, fun name hmem => (h name hmem).tail hstep⟩
      obtain ⟨last, hreach, hlast⟩ := exists_last_or_circle (typeName :: behind) hnext
      exact ⟨last, .head hstep hreach, hlast⟩
termination_by r.methods.countOutside behind
decreasing_by
  exact OrderedMap.countOutside_cons_lt (mem_keys_of_plan? hplan) (by simpa using hbehind)

/-- A type is no other name of date-time strings exactly if its delegations end otherwise or run into
a circle. -/
theorem dateAlias?_eq_none_iff_leads : r.dateAlias? typeName = none ↔
    ∃ last, ReflTransGen r.Delegates typeName last ∧
      (r.EndsOtherwise last ∨ TransGen r.Delegates last last) := by
  constructor
  · intro hnone
    obtain ⟨last, hreach, hlast⟩ := @exists_last_or_circle r typeName [] (by simp)
    refine ⟨last, hreach, hlast.imp_left fun hends => ⟨fun nullable hplan => ?_, hends⟩⟩
    obtain ⟨chain, hchain⟩ := AliasChain.of_reach hreach (.date hplan)
    obtain ⟨inner, hinner⟩ := dateAlias?_of_chain hchain
    rw [hinner] at hnone
    cases hnone
  · rintro ⟨last, hreach, hlast⟩
    rw [Option.eq_none_iff_forall_ne_some]
    intro nullable hsome
    obtain ⟨chain, hchain⟩ := (dateAlias?_eq_some_iff.1 hsome).exists_chain
    have hrest : ∃ tail, r.AliasChain last tail := by
      rcases reflTransGen_iff_eq_or_transGen.1 hreach with rfl | hsteps
      · exact ⟨chain, hchain⟩
      · obtain ⟨tail, htail, _⟩ := hchain.of_transGen hsteps
        exact ⟨tail, htail⟩
    obtain ⟨tail, htail⟩ := hrest
    rcases hlast with hends | hcircle
    · exact htail.not_endsOtherwise hends
    · exact htail.not_circle hcircle

end Registry

/-- Whatever calls were made on a registry, failed ones included: a type is found to be another name of
date-time strings exactly if a chain of delegations leads from it to a date, and null is admitted exactly
if the date or one of the delegations on this chain admits it. It is found to be none exactly if its
delegations come to a type with another plan or without one, or run into a circle. To follow more
delegations than there are types makes no difference, for a chain to a date has distinct types. And if
such a type is asked for, it is not empty. -/
theorem dateAlias_exact (calls : List (Document × Call)) (typeName : String) :
    let r := Registry.lifetime calls
    (∀ nullable, r.dateAlias? typeName = some nullable ↔
      ∃ links, r.AliasLinks typeName links ∧ nullable = links.any Prod.snd) ∧
    (r.dateAlias? typeName = none ↔ ∃ last, ReflTransGen r.Delegates typeName last ∧
      (r.EndsOtherwise last ∨ TransGen r.Delegates last last)) ∧
    (∀ steps, r.methods.size ≤ steps →
      r.aliasWithin steps false typeName = r.dateAlias? typeName) ∧
    (∀ links, r.AliasLinks typeName links →
      (links.map Prod.fst).Nodup ∧ links.length ≤ r.methods.size) ∧
    ∀ nullable, r.dateAlias? typeName = some nullable →
      ((isTypeEmpty typeName).run r).1 = .ok false := by
  intro r
  refine ⟨fun nullable => ?_, Registry.dateAlias?_eq_none_iff_leads,
    fun _ => Registry.aliasWithin_of_size_le, fun links hlinks => ?_, fun nullable => ?_⟩
  · rw [Registry.dateAlias?_eq_some_iff, Registry.namesDate_iff_links]
  · have hlength := hlinks.aliasChain.length_le
    rw [List.length_map] at hlength
    exact ⟨hlinks.aliasChain.nodup, hlength⟩
  · exact isTypeEmpty_alias (Registry.lifetime_sound calls)

end DateReviver
