import DateReviver.Proofs.Planning.Equations
import DateReviver.Proofs.Planning.Parts
import Mathlib.Data.List.Nodup
import Mathlib.Order.RelClasses

/-!
# Planning comes to an end

To plan a schema calls for planning the parts of it that stand inside, each with the names that were
found before, and a reference calls for planning the component that it leads to, if the name is new.
Along these calls the schema may become larger, but then a component name is used up; otherwise the
names are no fewer and the schema is smaller. So the calls are well founded. The types whose planning is
under way at any moment have distinct names, each of a component, and so there are no more of them than
components.
-/

namespace DateReviver

open DateReviver.OpenApi

/-- A schema is planned, with the names that are known then. -/
structure Planning where
  known : List String
  schema : Schema

/-- Schemas are planned successfully one after the other, and in the end these names are known. -/
inductive PlansThrough (doc : Document) :
    List String → List (List Access × Schema) → List String → Prop
  | nil {known : List String} : PlansThrough doc known [] known
  | cons {known now : List String} {steps : List Access} {schema : Schema}
      {rest : List (List Access × Schema)} {own : Planned Plan} {plan : Plan}
      (h : Plans doc known schema own) (hresult : own.result = .ok plan)
      (hrest : PlansThrough doc (known ++ own.names) rest now) :
      PlansThrough doc known ((steps, schema) :: rest) now

namespace Planning

/-- What is left to do: the component names that are not known, and the size of the schema. -/
noncomputable def remaining (doc : Document) (p : Planning) : Nat × Nat :=
  (doc.schemas.countOutside p.known, sizeOf p.schema)

/-- The schema is a reference to a component. -/
def Requests (doc : Document) (p : Planning) (name : String) (target : Schema) : Prop :=
  ∃ k reference, p.schema = .object k ∧ k.reference = some reference ∧
    doc.resolve reference = .ok (name, target)

/-- What planning a schema calls for, with the type that is opened for it, if one is. -/
inductive Calls (doc : Document) : Planning → List String → Planning → Prop
  | type {p : Planning} {name : String} {target : Schema} (h : p.Requests doc name target)
      (hnew : name ∉ p.known) : Calls doc p [name] ⟨name :: p.known, target⟩
  | part {known now : List String} {schema part : Schema} {steps : List Access}
      {before after : List (List Access × Schema)}
      (hinside : schema.Inside (before ++ (steps, part) :: after))
      (hbefore : PlansThrough doc known before now) : Calls doc ⟨known, schema⟩ [] ⟨now, part⟩

/-- Calls within calls lead from one planning to another. Listed are the types whose planning is then
under way, the outermost first. -/
inductive Leads (doc : Document) : Planning → List String → Planning → Prop
  | here {p : Planning} : Leads doc p [] p
  | call {p q last : Planning} {opened more : List String} (hcall : Calls doc p opened q)
      (h : Leads doc q more last) : Leads doc p (opened ++ more) last

end Planning

variable {doc : Document} {known now : List String} {schema part : Schema} {name : String}
  {parts before after : List (List Access × Schema)} {steps : List Access}

/-! ## The measure -/

theorem PlansThrough.exists_more (h : PlansThrough doc known parts now) :
    ∃ more, now = known ++ more := by
  induction h with
  | nil => exact ⟨[], (List.append_nil _).symm⟩
  | cons _ _ _ ih =>
      obtain ⟨more, rfl⟩ := ih
      exact ⟨_, List.append_assoc _ _ _⟩

theorem PlansThrough.countOutside_le (h : PlansThrough doc known parts now) :
    doc.schemas.countOutside now ≤ doc.schemas.countOutside known := by
  obtain ⟨more, rfl⟩ := h.exists_more
  exact OrderedMap.countOutside_append_le doc.schemas known more

/-- What stands inside of a schema is smaller. -/
theorem sizeOf_lt_of_inside (h : schema.Inside parts) (hmem : (steps, part) ∈ parts) :
    sizeOf part < sizeOf schema := by
  cases h with
  | boolean | anyUnion | bareArray | scalar | text => cases hmem
  | union _ hother =>
      cases List.mem_singleton.1 hmem
      exact sizeOf_unwrapNullable_lt hother
  | array _ _ hitems =>
      cases List.mem_singleton.1 hmem
      exact sizeOf_items_lt hitems
  | map _ _ _ hvalues =>
      cases List.mem_singleton.1 hmem
      exact sizeOf_mapValues_lt hvalues
  | object _ _ hproperties =>
      obtain ⟨⟨name, property⟩, hproperty, heq⟩ := List.mem_map.1 hmem
      cases heq
      have hlist := List.sizeOf_lt_of_mem hproperty
      have hschema := sizeOf_properties_lt hproperties
      simp only [Prod.mk.sizeOf_spec] at hlist
      dsimp only
      omega

namespace Planning

variable {p q last : Planning} {opened : List String} {target : Schema}

theorem Requests.component (h : p.Requests doc name target) : name ∈ doc.typeNames := by
  obtain ⟨k, reference, _, _, hresolve⟩ := h
  exact OrderedMap.mem_keys_of_get? (Document.schema?_of_resolve hresolve)

/-- Each call uses up component names, or leaves as many and plans a smaller schema. -/
theorem Calls.remaining_lt (h : p.Calls doc opened q) :
    Prod.Lex (· < ·) (· < ·) (q.remaining doc) (p.remaining doc) := by
  cases h with
  | type hrequests hnew =>
      exact Prod.Lex.left _ _
        (OrderedMap.countOutside_cons_lt hrequests.component (by simpa using hnew))
  | part hinside hbefore =>
      have hsize := sizeOf_lt_of_inside hinside (List.mem_append_right _ List.mem_cons_self)
      rcases Nat.lt_or_eq_of_le hbefore.countOutside_le with hlt | heq
      · exact Prod.Lex.left _ _ hlt
      · rw [remaining, remaining, heq]
        exact Prod.Lex.right _ hsize

/-- No planning calls for others without end. -/
theorem wellFounded_calls (doc : Document) :
    WellFounded fun q p : Planning => ∃ opened, p.Calls doc opened q :=
  Subrelation.wf (fun ⟨_, h⟩ => h.remaining_lt)
    (InvImage.wf (remaining doc) (WellFounded.prod_lex Nat.lt_wfRel.wf Nat.lt_wfRel.wf))

/-! ## How deep the calls are nested -/

/-- The types that are opened by a call are new components, known from then on. -/
theorem Calls.opened_new (h : p.Calls doc opened q) : opened.Nodup ∧
    (∀ name ∈ opened, name ∉ p.known ∧ name ∈ doc.typeNames ∧ name ∈ q.known) ∧
      p.known ⊆ q.known := by
  cases h with
  | type hrequests hnew =>
      refine ⟨List.nodup_singleton _, fun name hmem => ?_, List.subset_cons_self _ _⟩
      cases List.mem_singleton.1 hmem
      exact ⟨hnew, hrequests.component, List.mem_cons_self⟩
  | part _ hbefore =>
      obtain ⟨more, rfl⟩ := hbefore.exists_more
      exact ⟨List.nodup_nil, fun name hmem => (by cases hmem), List.subset_append_left _ _⟩

/-- The types whose planning is under way are distinct components that were not known. -/
theorem Leads.opened_new (h : p.Leads doc opened last) :
    opened.Nodup ∧ ∀ name ∈ opened, name ∉ p.known ∧ name ∈ doc.typeNames := by
  induction h with
  | here => exact ⟨List.nodup_nil, fun name hmem => by cases hmem⟩
  | call hcall _ ih =>
      obtain ⟨hnodup, hfirst, hsubset⟩ := hcall.opened_new
      constructor
      · rw [List.nodup_append]
        refine ⟨hnodup, ih.1, ?_⟩
        rintro name hname _ hmore rfl
        exact (ih.2 name hmore).1 (hfirst name hname).2.2
      · intro name hmem
        rcases List.mem_append.1 hmem with hname | hmore
        · exact ⟨(hfirst name hname).1, (hfirst name hname).2.1⟩
        · exact ⟨fun hold => (ih.2 name hmore).1 (hsubset hold), (ih.2 name hmore).2⟩

theorem Leads.length_le (h : p.Leads doc opened last) : opened.length ≤ doc.schemas.size := by
  obtain ⟨hnodup, hcomponents⟩ := h.opened_new
  have hsubset : opened ⊆ doc.typeNames := fun name hmem => (hcomponents name hmem).2
  exact OrderedMap.length_le_size hnodup hsubset

/-- A type that was new when it was registered is open besides. -/
theorem Leads.length_le_of_registered (h : Leads doc ⟨name :: known, schema⟩ opened last) :
    (name :: opened).Nodup ∧ (name :: opened).length ≤ doc.schemas.size + 1 ∧
      (name ∈ doc.typeNames → (name :: opened).length ≤ doc.schemas.size) := by
  obtain ⟨hnodup, hcomponents⟩ := h.opened_new
  have hnew : name ∉ opened := fun hmem => (hcomponents name hmem).1 List.mem_cons_self
  have hall : (name :: opened).Nodup := List.nodup_cons.2 ⟨hnew, hnodup⟩
  refine ⟨hall, Nat.succ_le_succ h.length_le, fun hcomponent => ?_⟩
  have hsubset : name :: opened ⊆ doc.typeNames :=
    List.cons_subset.2 ⟨hcomponent, fun other hmem => (hcomponents other hmem).2⟩
  exact OrderedMap.length_le_size hall hsubset

/-! ## The calls are those that planning makes -/

/-- A type is opened at some point when a schema is planned. -/
def Opens (doc : Document) (p : Planning) (name : String) : Prop :=
  ∃ opened last, p.Leads doc opened last ∧ name ∈ opened

theorem Calls.opens (hcall : p.Calls doc opened q) (h : q.Opens doc name) : p.Opens doc name := by
  obtain ⟨more, last, hleads, hmem⟩ := h
  exact ⟨_, last, .call hcall hleads, List.mem_append_right _ hmem⟩

theorem Calls.opens_first (hcall : p.Calls doc opened q) (hmem : name ∈ opened) :
    p.Opens doc name :=
  ⟨_, q, .call hcall .here, List.mem_append_left _ hmem⟩

theorem opens_of_only (hinside : schema.Inside [(steps, part)])
    (h : Opens doc ⟨known, part⟩ name) : Opens doc ⟨known, schema⟩ name := by
  have hfirst : schema.Inside ([] ++ (steps, part) :: []) := hinside
  exact (Calls.part hfirst .nil).opens h

end Planning

open Planning

/-- The steps to the schemas of properties. -/
def propertyParts (properties : List (String × Schema)) : List (List Access × Schema) :=
  properties.map fun property => ([.property property.1], property.2)

mutual

/-- Whatever planning finds is opened by calls. -/
theorem Plans.opens : {known : List String} → {schema : Schema} → {planned : Planned Plan} →
    Plans doc known schema planned → {name : String} → name ∈ planned.names →
      Opens doc ⟨known, schema⟩ name
  | _, _, _, .new hreference hresolve hnew h, _, hmem => by
      have hcall := Calls.type (p := ⟨_, _⟩) ⟨_, _, rfl, hreference, hresolve⟩ hnew
      rcases List.mem_cons.1 hmem with rfl | hfound
      · exact hcall.opens_first List.mem_cons_self
      · exact hcall.opens (h.opens hfound)
  | _, _, _, .union hreference hother h, _, hmem =>
      opens_of_only (.union hreference hother) (h.opens hmem)
  | _, _, _, .array hplain htype hitems h, _, hmem =>
      opens_of_only (.array hplain htype hitems) (h.opens hmem)
  | _, _, _, .map hopen hobject hproperties hvalues h, _, hmem =>
      opens_of_only (.map hopen hobject hproperties hvalues) (h.opens hmem)
  | _, _, _, .object hopen hobject hproperties hvalues h, _, hmem => by
      obtain ⟨before, property, after, now, rfl, hbefore, hopens⟩ := h.opens hmem
      have hinside := Schema.Inside.object hopen hobject hproperties hvalues
      rw [List.map_append, List.map_cons] at hinside
      exact (Calls.part hinside hbefore).opens hopens
  | _, _, _, .boolean, _, hmem | _, _, _, .unresolved _ _, _, hmem
  | _, _, _, .known _ _ _, _, hmem | _, _, _, .anyUnion _ _ _, _, hmem
  | _, _, _, .bareArray _ _ _, _, hmem | _, _, _, .scalar _ _, _, hmem
  | _, _, _, .conflict _ _ _ _, _, hmem | _, _, _, .empty _ _ _ _, _, hmem
  | _, _, _, .date _ _ _, _, hmem | _, _, _, .text _ _ _, _, hmem => nomatch hmem

theorem PlansAll.opens : {known : List String} → {properties : List (String × Schema)} →
    {planned : Planned (List (String × Plan))} → PlansAll doc known properties planned →
      {name : String} → name ∈ planned.names →
        ∃ before property after now, properties = before ++ property :: after ∧
          PlansThrough doc known (propertyParts before) now ∧ Opens doc ⟨now, property.2⟩ name
  | _, _, _, .nil, _, hmem => nomatch hmem
  | _, _, _, .failed h _, _, hmem => ⟨[], _, _, _, rfl, .nil, h.opens hmem⟩
  | _, _, _, .cons h hresult hrest, _, hmem => by
      rw [Planned.names, List.map_append] at hmem
      rcases List.mem_append.1 hmem with hown | hothers
      · exact ⟨[], _, _, _, rfl, .nil, h.opens hown⟩
      · obtain ⟨before, property, after, now, rfl, hbefore, hopens⟩ := hrest.opens hothers
        exact ⟨_ :: before, property, after, now, rfl, .cons h hresult hbefore, hopens⟩

end

/-- Planning properties finds what planning one of them finds. -/
theorem PlansThrough.names_subset {properties rest : List (String × Schema)}
    {property : String × Schema} (h : PlansThrough doc known (propertyParts properties) now) :
    (planSchema doc now property.2).names ⊆
      (planProperties doc known (properties ++ property :: rest)).names := by
  induction properties generalizing known with
  | nil =>
      cases h
      rw [List.nil_append, planProperties]
      dsimp only
      split
      · exact List.Subset.refl _
      · rw [Planned.names, Planned.names, List.map_append]
        exact List.subset_append_left _ _
  | cons first others ih =>
      cases h with
      | cons hplans hresult hrest =>
          rw [hplans.eq_planSchema] at hresult hrest
          rw [List.cons_append, planProperties]
          dsimp only
          rw [hresult]
          dsimp only
          rw [Planned.names, Planned.names, List.map_append]
          exact List.Subset.trans (ih hrest) (List.subset_append_right _ _)

theorem Planned.names_map {α β : Type} (f : α → β) (planned : Planned α) :
    (planned.map f).names = planned.names :=
  rfl

/-- Planning a schema finds what planning a part of it finds. -/
theorem OpenApi.Schema.Inside.names_subset (h : schema.Inside parts)
    (hparts : parts = before ++ (steps, part) :: after)
    (hbefore : PlansThrough doc known before now) :
    (planSchema doc now part).names ⊆ (planSchema doc known schema).names := by
  have honly {other : Schema} {access : List Access} {f : Plan → Plan}
      (hplans : Plans doc known schema ((planSchema doc known other).map f))
      (heq : [(access, other)] = before ++ (steps, part) :: after) :
      (planSchema doc now part).names ⊆ (planSchema doc known schema).names := by
    cases before with
    | nil =>
        cases heq
        cases hbefore
        rw [← hplans.eq_planSchema, Planned.names_map]
        exact List.Subset.refl _
    | cons first others => simp at heq
  cases h with
  | boolean | anyUnion | bareArray | scalar | text => simp at hparts
  | union hreference hother =>
      exact honly (.union hreference hother (planSchema_plans doc known _)) hparts
  | array hplain htype hitems =>
      exact honly (.array hplain htype hitems (planSchema_plans doc known _)) hparts
  | map hopen hobject hproperties hvalues =>
      exact honly (.map hopen hobject hproperties hvalues (planSchema_plans doc known _)) hparts
  | object hopen hobject hproperties hvalues =>
      obtain ⟨first, others, rfl, rfl, hothers⟩ := List.map_eq_append_iff.1 hparts
      obtain ⟨property, rest, rfl, hproperty, -⟩ := List.map_eq_cons_iff.1 hothers
      cases hproperty
      have hplans := Plans.object hopen hobject hproperties hvalues
        (planProperties_plansAll doc known (first ++ property :: rest))
      rw [← hplans.eq_planSchema, Planned.names_map]
      exact PlansThrough.names_subset hbefore

/-- What a call finds, the planning that makes the call finds. -/
theorem Planning.Calls.names_subset {p q : Planning} {opened : List String}
    (h : p.Calls doc opened q) :
    opened ++ (planSchema doc q.known q.schema).names ⊆
      (planSchema doc p.known p.schema).names := by
  cases h with
  | type hrequests hnew =>
      obtain ⟨k, reference, hschema, hreference, hresolve⟩ := hrequests
      rw [hschema, ← (Plans.new hreference hresolve hnew (planSchema_plans doc _ _)).eq_planSchema]
      exact List.Subset.refl _
  | part hinside hbefore => exact hinside.names_subset rfl hbefore

theorem Planning.Leads.names_subset {p last : Planning} {opened : List String}
    (h : p.Leads doc opened last) : opened ⊆ (planSchema doc p.known p.schema).names := by
  induction h with
  | here => exact List.nil_subset _
  | call hcall _ ih =>
      intro name hmem
      refine hcall.names_subset (List.mem_append.2 ?_)
      exact (List.mem_append.1 hmem).imp_right fun hmore => ih hmore

/-- Planning finds exactly the types that are opened by calls. -/
theorem mem_names_iff_opens : name ∈ (planSchema doc known schema).names ↔
    Opens doc ⟨known, schema⟩ name := by
  constructor
  · exact (planSchema_plans doc known schema).opens
  · rintro ⟨opened, last, hleads, hmem⟩
    exact hleads.names_subset hmem

end DateReviver
