import DateReviver.Emptiness
import DateReviver.Proofs.OrderedMap
import DateReviver.Proofs.Reachability

/-!
# Other names of date-time strings

A type is another name of date-time strings if delegations lead from it to a date. The types on the
way are distinct, for a type that came twice would come again and again, so that counting as many
steps as there are types misses no such name. Null may stand in the place of such a date if one of the
delegations admits it or the date itself does.
-/

namespace DateReviver.Registry

/-- The types on the way from a type to a date, through delegations alone. -/
inductive AliasChain (r : Registry) : String → List String → Prop
  | date {typeName : String} {nullable : Bool} (hplan : r.plan? typeName = some (.date nullable)) :
      AliasChain r typeName [typeName]
  | delegate {typeName target : String} {nullable : Bool} {chain : List String}
      (hplan : r.plan? typeName = some (.delegate target nullable))
      (h : AliasChain r target chain) : AliasChain r typeName (typeName :: chain)

variable {r : Registry} {typeName target : String} {nullable inner : Bool} {chain : List String}

namespace AliasChain

theorem unique {other : List String} (h : AliasChain r typeName chain)
    (hother : AliasChain r typeName other) : chain = other := by
  induction h generalizing other with
  | date hplan =>
      cases hother with
      | date => rfl
      | delegate hplan' =>
          rw [hplan] at hplan'
          cases hplan'
  | delegate hplan _ ih =>
      cases hother with
      | date hplan' =>
          rw [hplan] at hplan'
          cases hplan'
      | delegate hplan' hrest =>
          rw [hplan] at hplan'
          cases hplan'
          rw [ih hrest]

theorem of_mem {name : String} (h : AliasChain r typeName chain) (hmem : name ∈ chain) :
    ∃ tail, AliasChain r name tail ∧ tail.length ≤ chain.length := by
  induction h with
  | date hplan =>
      rw [List.mem_singleton] at hmem
      subst hmem
      exact ⟨_, .date hplan, Nat.le_refl _⟩
  | delegate hplan h ih =>
      rcases List.mem_cons.1 hmem with rfl | htail
      · exact ⟨_, .delegate hplan h, Nat.le_refl _⟩
      · obtain ⟨tail, htail, hlength⟩ := ih htail
        exact ⟨tail, htail, Nat.le_succ_of_le hlength⟩

theorem nodup (h : AliasChain r typeName chain) : chain.Nodup := by
  induction h with
  | date => simp
  | delegate hplan h ih =>
      refine List.nodup_cons.2 ⟨fun hmem => ?_, ih⟩
      obtain ⟨tail, htail, hlength⟩ := h.of_mem hmem
      rw [htail.unique (.delegate hplan h), List.length_cons] at hlength
      omega

theorem subset (h : AliasChain r typeName chain) : chain ⊆ r.methods.keys := by
  induction h with
  | date hplan => simpa using mem_keys_of_plan? hplan
  | delegate hplan _ ih => exact List.cons_subset.2 ⟨mem_keys_of_plan? hplan, ih⟩

theorem length_le (h : AliasChain r typeName chain) : chain.length ≤ r.methods.size :=
  OrderedMap.length_le_size h.nodup h.subset

/-- Enough steps find the date at the end. -/
theorem aliasWithin {steps : Nat} (h : AliasChain r typeName chain) (hsteps : chain.length ≤ steps)
    (nullable : Bool) : ∃ inner, r.aliasWithin steps nullable typeName = some inner := by
  induction h generalizing steps nullable with
  | date hplan =>
      obtain ⟨rest, rfl⟩ : ∃ rest, steps = rest + 1 := ⟨steps - 1, by simp at hsteps; omega⟩
      exact ⟨_, by rw [Registry.aliasWithin, hplan]⟩
  | delegate hplan _ ih =>
      rw [List.length_cons] at hsteps
      obtain ⟨rest, rfl⟩ : ∃ rest, steps = rest + 1 := ⟨steps - 1, by omega⟩
      rw [Registry.aliasWithin, hplan]
      exact ih (by omega) _

end AliasChain

theorem aliasChain_of_aliasWithin {steps : Nat}
    (h : r.aliasWithin steps nullable typeName = some inner) :
    ∃ chain, AliasChain r typeName chain := by
  induction steps generalizing nullable typeName with
  | zero => cases h
  | succ steps ih =>
      rw [aliasWithin] at h
      split at h
      · exact ⟨_, .date ‹_›⟩
      · obtain ⟨chain, hchain⟩ := ih h
        exact ⟨_, .delegate ‹_› hchain⟩
      · cases h

theorem dateAlias?_of_chain (h : AliasChain r typeName chain) :
    ∃ inner, r.dateAlias? typeName = some inner :=
  h.aliasWithin h.length_le false

/-- A date is another name of itself. -/
theorem dateAlias?_of_date (hplan : r.plan? typeName = some (.date nullable)) :
    ∃ inner, r.dateAlias? typeName = some inner :=
  dateAlias?_of_chain (.date hplan)

/-- A delegation to another name of date-time strings is one more name of them. -/
theorem dateAlias?_of_delegate (hplan : r.plan? typeName = some (.delegate target nullable))
    (h : r.dateAlias? target = some inner) : ∃ inner, r.dateAlias? typeName = some inner := by
  obtain ⟨chain, hchain⟩ := aliasChain_of_aliasWithin h
  exact dateAlias?_of_chain (.delegate hplan hchain)

theorem AliasChain.holdsDate (h : AliasChain r typeName chain) :
    r.HoldsDate (.delegate typeName nullable) := by
  induction h generalizing nullable with
  | date hplan => exact holdsDate_date.of_step (.unfold hplan)
  | delegate hplan _ ih => exact ih.of_step (.unfold hplan)

theorem holdsDate_of_dateAlias? (h : r.dateAlias? typeName = some inner) :
    r.HoldsDate (.delegate typeName nullable) := by
  obtain ⟨chain, hchain⟩ := aliasChain_of_aliasWithin h
  exact hchain.holdsDate

/-! ## Null in the place of the date -/

/-- A type is another name of date-time strings; `nullable` says that null may stand in their place. -/
inductive NamesDate (r : Registry) : String → (nullable : Bool) → Prop
  | date {typeName : String} {nullable : Bool} (hplan : r.plan? typeName = some (.date nullable)) :
      NamesDate r typeName nullable
  | delegate {typeName target : String} {nullable inner : Bool}
      (hplan : r.plan? typeName = some (.delegate target nullable)) (h : NamesDate r target inner) :
      NamesDate r typeName (nullable || inner)

theorem NamesDate.unique {other : Bool} (h : r.NamesDate typeName nullable)
    (hother : r.NamesDate typeName other) : nullable = other := by
  induction h generalizing other with
  | date hplan =>
      cases hother with
      | date hplan' =>
          rw [hplan] at hplan'
          cases hplan'
          rfl
      | delegate hplan' =>
          rw [hplan] at hplan'
          cases hplan'
  | delegate hplan _ ih =>
      cases hother with
      | date hplan' =>
          rw [hplan] at hplan'
          cases hplan'
      | delegate hplan' hrest =>
          rw [hplan] at hplan'
          cases hplan'
          rw [ih hrest]

theorem NamesDate.exists_chain (h : r.NamesDate typeName nullable) :
    ∃ chain, AliasChain r typeName chain := by
  induction h with
  | date hplan => exact ⟨_, .date hplan⟩
  | delegate hplan _ ih =>
      obtain ⟨chain, hchain⟩ := ih
      exact ⟨_, .delegate hplan hchain⟩

theorem namesDate_of_aliasWithin {steps : Nat} {found : Bool}
    (h : r.aliasWithin steps nullable typeName = some found) :
    ∃ inner, r.NamesDate typeName inner ∧ found = (nullable || inner) := by
  induction steps generalizing nullable typeName with
  | zero => cases h
  | succ steps ih =>
      rw [aliasWithin] at h
      split at h
      · rename_i inner hplan
        cases h
        exact ⟨inner, .date hplan, rfl⟩
      · rename_i target own hplan
        obtain ⟨inner, hinner, heq⟩ := ih h
        exact ⟨own || inner, .delegate hplan hinner, by rw [heq, Bool.or_assoc]⟩
      · cases h

/-- Following delegations finds out which types are other names of date-time strings, and where null
is admitted. -/
theorem dateAlias?_eq_some_iff : r.dateAlias? typeName = some nullable ↔ r.NamesDate typeName nullable := by
  constructor
  · intro h
    obtain ⟨inner, hinner, rfl⟩ := namesDate_of_aliasWithin h
    exact hinner
  · intro h
    obtain ⟨chain, hchain⟩ := h.exists_chain
    obtain ⟨found, hfound⟩ := dateAlias?_of_chain hchain
    obtain ⟨inner, hinner, rfl⟩ := namesDate_of_aliasWithin hfound
    rw [hfound, h.unique hinner]

end DateReviver.Registry
