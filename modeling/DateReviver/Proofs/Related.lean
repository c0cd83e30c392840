import Mathlib.Data.List.Forall2

/-!
# Lists that are related item by item

What one list has, the other has beside it: an item that is related to it, at the same place. A list
that is mapped is related so to what comes of it.
-/

namespace DateReviver

section Forall₂

variable {α β : Type} {R : α → β → Prop} {as : List α} {bs : List β}

theorem exists_of_mem_right {b : β} (h : List.Forall₂ R as bs) (hmem : b ∈ bs) :
    ∃ a ∈ as, R a b := by
  induction h with
  | nil => cases hmem
  | cons hfirst _ ih =>
      rcases List.mem_cons.1 hmem with rfl | htail
      · exact ⟨_, List.mem_cons_self, hfirst⟩
      · obtain ⟨a, ha, hrelated⟩ := ih htail
        exact ⟨a, List.mem_cons_of_mem _ ha, hrelated⟩

theorem exists_of_mem_left {a : α} (h : List.Forall₂ R as bs) (hmem : a ∈ as) :
    ∃ b ∈ bs, R a b :=
  exists_of_mem_right h.flip hmem

/-- What holds of any two items in their order holds, in another form, of those beside them. -/
theorem pairwise_of_forall₂ {S : α → α → Prop} {T : β → β → Prop} (h : List.Forall₂ R as bs)
    (himp : ∀ a a' b b', R a b → R a' b' → S a a' → T b b') (hpairs : as.Pairwise S) :
    bs.Pairwise T := by
  induction h with
  | nil => exact .nil
  | cons hfirst hrest ih =>
      obtain ⟨hhead, htail⟩ := List.pairwise_cons.1 hpairs
      refine List.pairwise_cons.2 ⟨fun b hmem => ?_, ih htail⟩
      obtain ⟨a, ha, hrelated⟩ := exists_of_mem_right hrest hmem
      exact himp _ _ _ _ hfirst hrelated (hhead a ha)

end Forall₂

/-- What a list is mapped to, if nothing fails. -/
theorem mapM_eq_some_iff {α β : Type} {f : α → Option β} {items : List α} {values : List β} :
    items.mapM f = some values ↔ List.Forall₂ (fun item value => f item = some value) items values := by
  induction items generalizing values with
  | nil => simp [eq_comm]
  | cons item rest ih =>
      simp only [List.mapM_cons, Option.bind_eq_bind, Option.bind_eq_some_iff, Option.pure_def,
        Option.some.injEq, ih, List.forall₂_cons_left_iff]
      constructor
      · rintro ⟨value, hvalue, others, hothers, rfl⟩
        exact ⟨value, others, hvalue, hothers, rfl⟩
      · rintro ⟨value, others, hvalue, hothers, rfl⟩
        exact ⟨value, hvalue, others, hothers, rfl⟩

theorem mapM_eq_none {α β : Type} {f : α → Option β} {items : List α} {item : α}
    (hmem : item ∈ items) (h : f item = none) : items.mapM f = none := by
  rw [Option.eq_none_iff_forall_ne_some]
  intro values hvalues
  obtain ⟨value, _, hvalue⟩ := exists_of_mem_left (mapM_eq_some_iff.1 hvalues) hmem
  rw [h] at hvalue
  cases hvalue

theorem getElem?_of_forall₂ {α β : Type} {f : α → Option β} {items : List α} {values : List β}
    (h : List.Forall₂ (fun item value => f item = some value) items values) (place : Nat) :
    values[place]? = items[place]?.bind f := by
  induction h generalizing place with
  | nil => rfl
  | cons hhead _ ih =>
      cases place with
      | zero => simp [hhead]
      | succ place => simpa using ih place

theorem optionRel_imp {α β : Type} {R S : α → β → Prop} {left : Option α} {right : Option β}
    (h : Option.Rel R left right) (himp : ∀ a b, R a b → S a b) : Option.Rel S left right := by
  cases h with
  | none => exact .none
  | some hown => exact .some (himp _ _ hown)

end DateReviver
