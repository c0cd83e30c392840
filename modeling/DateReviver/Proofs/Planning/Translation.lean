import DateReviver.Proofs.Planning.Course
import DateReviver.Proofs.Reachability

/-!
# Planning is a translation of schemas

The plan of a schema depends on the schema and the document alone, not on the types that happen to
be known: it is the translation of the schema in which a reference stands as a delegation. What the
walk adds to it are the types that it meets for the first time. They are distinct and new, each with
the translation of its own component schema, and every type that a plan names is known in the end.
-/

namespace DateReviver

open DateReviver.OpenApi

/-- A nullable union of one other schema leads to that schema; `wrapped` says whether there was any
such union on the way. -/
inductive Unwraps : Schema → (wrapped : Bool) → Schema → Prop
  | refl {schema : Schema} : Unwraps schema false schema
  | step {k : Keywords Schema} {inner schema : Schema} {wrapped : Bool}
      (hreference : k.reference = none) (hinner : k.unwrapNullable = some inner)
      (h : Unwraps inner wrapped schema) : Unwraps (.object k) true schema

mutual

/-- The plan of a schema that is no nullable union of one other. -/
inductive Shapes (doc : Document) : Schema → Plan → Prop
  | boolean {value : Bool} : Shapes doc (.boolean value) .primitive
  | reference {k : Keywords Schema} {reference name : String} {target : Schema}
      (hreference : k.reference = some reference)
      (hresolve : doc.resolve reference = .ok (name, target)) :
      Shapes doc (.object k) (.delegate name k.isNullable)
  | union {k : Keywords Schema} (hreference : k.reference = none)
      (hinner : k.unwrapNullable = none) (hunion : k.anyOf.isSome) :
      Shapes doc (.object k) .primitive
  | array {k : Keywords Schema} {items : Schema} {item : Plan} (hplain : IsPlain k)
      (htype : k.primaryType = some "array") (hitems : k.items = some items)
      (h : Translates doc items item) : Shapes doc (.object k) (.array item k.isNullable)
  | bareArray {k : Keywords Schema} (hplain : IsPlain k)
      (htype : k.primaryType = some "array") (hitems : k.items = none) :
      Shapes doc (.object k) (.array .primitive k.isNullable)
  | scalar {k : Keywords Schema} (hplain : IsPlain k) (hscalar : IsScalar k) :
      Shapes doc (.object k) .primitive
  | map {k : Keywords Schema} {values : Schema} {plan : Plan} (hopen : IsOpen k)
      (hobject : k.isObject = true) (hproperties : k.properties = none)
      (hvalues : k.mapValues = some values) (h : Translates doc values plan) :
      Shapes doc (.object k) (.map plan k.isNullable)
  | object {k : Keywords Schema} {properties : List (String × Schema)}
      {plans : List (String × Plan)} (hopen : IsOpen k) (hobject : k.isObject = true)
      (hproperties : k.properties = some properties) (hvalues : k.mapValues = none)
      (h : TranslatesAll doc properties plans) :
      Shapes doc (.object k) (.object plans k.isNullable)
  | date {k : Keywords Schema} (hopen : IsOpen k) (hobject : k.isObject = false)
      (hformat : k.format = some "date-time") : Shapes doc (.object k) (.date k.isNullable)
  | text {k : Keywords Schema} (hopen : IsOpen k) (hobject : k.isObject = false)
      (hformat : k.format ≠ some "date-time") : Shapes doc (.object k) .primitive

/-- The plan of a schema: references stay references. -/
inductive Translates (doc : Document) : Schema → Plan → Prop
  | shape {schema : Schema} {plan : Plan} (h : Shapes doc schema plan) :
      Translates doc schema plan
  | wrapped {k : Keywords Schema} {inner : Schema} {plan : Plan} (hreference : k.reference = none)
      (hinner : k.unwrapNullable = some inner) (h : Translates doc inner plan) :
      Translates doc (.object k) plan.orNull

/-- The plans of properties, each under its name. -/
inductive TranslatesAll (doc : Document) :
    List (String × Schema) → List (String × Plan) → Prop
  | nil : TranslatesAll doc [] []
  | cons {name : String} {schema : Schema} {plan : Plan} {schemas : List (String × Schema)}
      {plans : List (String × Plan)} (h : Translates doc schema plan)
      (hrest : TranslatesAll doc schemas plans) :
      TranslatesAll doc ((name, schema) :: schemas) ((name, plan) :: plans)

end

/-! ## What a walk finds -/

/-- The types that a plan names were known before or are found. -/
abbrev Plan.Names (plan : Plan) (known found : List String) : Prop :=
  plan.Within True fun typeName => typeName ∈ known ∨ typeName ∈ found

theorem Plan.Names.mono {plan : Plan} {known known' found found' : List String}
    (h : plan.Names known found)
    (hsub : ∀ name, name ∈ known ∨ name ∈ found → name ∈ known' ∨ name ∈ found') :
    plan.Names known' found' :=
  Within.mono h id hsub

/-- What a walk finds, starting from known types: new types under distinct names, and for each that
could be planned the translation of its schema. `origin` says which schema a name stands for. -/
structure Discovers (doc : Document) (origin : String → Schema → Prop) (known : List String)
    (found : List (String × Option Plan)) : Prop where
  nodup : (found.map Prod.fst).Nodup
  fresh : ∀ name ∈ found.map Prod.fst, name ∉ known
  sourced : ∀ name ∈ found.map Prod.fst, ∃ schema, origin name schema
  planned : ∀ name plan, (name, some plan) ∈ found → ∃ schema, origin name schema ∧
    Translates doc schema plan ∧ plan.Names known (found.map Prod.fst)

/-- A name stands for the component schema of the document. -/
abbrev Component (doc : Document) (name : String) (schema : Schema) : Prop :=
  doc.schema? name = some schema

/-- What a walk does: it finds components and, if it succeeds, has planned each of them and has a
result that satisfies `good`. -/
structure Planned.Meets {α : Type} (doc : Document) (known : List String)
    (good : List String → α → Prop) (walk : Planned α) : Prop where
  discovers : Discovers doc (Component doc) known walk.found
  result : ∀ a, walk.result = .ok a →
    good walk.names a ∧ ∀ entry ∈ walk.found, entry.2.isSome

section Discovers

variable {doc : Document} {origin : String → Schema → Prop} {known : List String}

theorem Discovers.nil : Discovers doc origin known [] :=
  ⟨List.nodup_nil, by simp, by simp, by simp⟩

/-- A walk that goes on where another stopped. -/
theorem Discovers.append {first second : List (String × Option Plan)}
    (h₁ : Discovers doc origin known first)
    (h₂ : Discovers doc origin (known ++ first.map Prod.fst) second) :
    Discovers doc origin known (first ++ second) := by
  have hdisjoint : ∀ name ∈ second.map Prod.fst, name ∉ known ∧ name ∉ first.map Prod.fst := by
    intro name hname
    have hfresh := h₂.fresh name hname
    rw [List.mem_append, not_or] at hfresh
    exact hfresh
  constructor
  · rw [List.map_append, List.nodup_append]
    refine ⟨h₁.nodup, h₂.nodup, ?_⟩
    intro name hfirst other hsecond heq
    exact (hdisjoint other hsecond).2 (heq ▸ hfirst)
  · intro name hname
    rw [List.map_append, List.mem_append] at hname
    rcases hname with hfirst | hsecond
    · exact h₁.fresh name hfirst
    · exact (hdisjoint name hsecond).1
  · intro name hname
    rw [List.map_append, List.mem_append] at hname
    rcases hname with hfirst | hsecond
    · exact h₁.sourced name hfirst
    · exact h₂.sourced name hsecond
  · intro name plan hmem
    rw [List.map_append]
    rcases List.mem_append.1 hmem with hfirst | hsecond
    · obtain ⟨schema, hschema, htranslates, hnames⟩ := h₁.planned name plan hfirst
      refine ⟨schema, hschema, htranslates, hnames.mono fun other hother => ?_⟩
      rcases hother with hknown | hfound
      · exact .inl hknown
      · exact .inr (List.mem_append_left _ hfound)
    · obtain ⟨schema, hschema, htranslates, hnames⟩ := h₂.planned name plan hsecond
      refine ⟨schema, hschema, htranslates, hnames.mono fun other hother => ?_⟩
      rcases hother with hmiddle | hfound
      · rcases List.mem_append.1 hmiddle with hknown | hfirst
        · exact .inl hknown
        · exact .inr (List.mem_append_left _ hfirst)
      · exact .inr (List.mem_append_right _ hfound)

/-- A type that counts as known while its own schema is walked. -/
theorem Discovers.cons {origin' : String → Schema → Prop} {typeName : String} {schema : Schema}
    {own : Option Plan} {found : List (String × Option Plan)} (hnew : typeName ∉ known)
    (horigin : origin' typeName schema) (himp : ∀ name schema, origin name schema →
      origin' name schema) (h : Discovers doc origin (typeName :: known) found)
    (hown : ∀ plan, own = some plan → Translates doc schema plan ∧
      plan.Names (typeName :: known) (found.map Prod.fst)) :
    Discovers doc origin' known ((typeName, own) :: found) := by
  have hmove : ∀ name, name ∈ typeName :: known ∨ name ∈ found.map Prod.fst →
      name ∈ known ∨ name ∈ typeName :: found.map Prod.fst := by
    intro name hname
    rcases hname with hmiddle | hfound
    · rcases List.mem_cons.1 hmiddle with rfl | hknown
      · exact .inr List.mem_cons_self
      · exact .inl hknown
    · exact .inr (List.mem_cons_of_mem _ hfound)
  have hfresh : ∀ name ∈ found.map Prod.fst, name ≠ typeName ∧ name ∉ known := by
    intro name hname
    have hnot := h.fresh name hname
    rw [List.mem_cons, not_or] at hnot
    exact hnot
  constructor
  · rw [List.map_cons, List.nodup_cons]
    exact ⟨fun hmem => (hfresh typeName hmem).1 rfl, h.nodup⟩
  · intro name hname
    rcases List.mem_cons.1 hname with rfl | hfound
    · exact hnew
    · exact (hfresh name hfound).2
  · intro name hname
    rcases List.mem_cons.1 hname with rfl | hfound
    · exact ⟨schema, horigin⟩
    · obtain ⟨found, hfound⟩ := h.sourced name hfound
      exact ⟨found, himp name found hfound⟩
  · intro name plan hmem
    rcases List.mem_cons.1 hmem with heq | hfound
    · cases heq
      obtain ⟨htranslates, hnames⟩ := hown plan rfl
      exact ⟨schema, horigin, htranslates, hnames.mono hmove⟩
    · obtain ⟨source, hsource, htranslates, hnames⟩ := h.planned name plan hfound
      exact ⟨source, himp name source hsource, htranslates, hnames.mono hmove⟩

end Discovers

section Meets

variable {α β : Type} {doc : Document} {known : List String} {good : List String → α → Prop}

theorem Planned.Meets.done {a : α} (h : good [] a) : (Planned.done a).Meets doc known good := by
  refine ⟨Discovers.nil, fun b hb => ?_⟩
  cases hb
  exact ⟨h, by simp [Planned.done]⟩

theorem Planned.Meets.fail {e : GenerationError} : (Planned.fail e).Meets doc known good :=
  ⟨Discovers.nil, fun _ hb => by cases hb⟩

theorem Planned.Meets.map {good' : List String → β → Prop} {walk : Planned α} {f : α → β}
    (h : walk.Meets doc known good) (hf : ∀ names a, good names a → good' names (f a)) :
    (walk.map f).Meets doc known good' := by
  refine ⟨h.discovers, fun b hb => ?_⟩
  rcases hresult : walk.result with e | a
  · simp [Planned.map, hresult, Except.map] at hb
  · simp only [Planned.map, hresult, Except.map, Except.ok.injEq] at hb
    obtain ⟨hgood, hall⟩ := h.result a hresult
    exact ⟨hb ▸ hf _ a hgood, hall⟩

end Meets

/-- The result of planning a schema is its translation, and names known or found types only. -/
abbrev GoodPlan (doc : Document) (known : List String) (schema : Schema) (found : List String)
    (plan : Plan) : Prop :=
  Translates doc schema plan ∧ plan.Names known found

/-- The results of planning properties are their translations. -/
abbrev GoodPlans (doc : Document) (known : List String) (properties : List (String × Schema))
    (found : List String) (plans : List (String × Plan)) : Prop :=
  TranslatesAll doc properties plans ∧ ∀ property ∈ plans, property.2.Names known found

variable {doc : Document} {known : List String}

/-- A reference to a new type: the type is planned on the spot. -/
theorem Planned.Meets.reference {k : Keywords Schema} {reference name : String} {target : Schema}
    {own : Planned Plan} (hreference : k.reference = some reference)
    (hresolve : doc.resolve reference = .ok (name, target)) (hnew : name ∉ known)
    (h : own.Meets doc (name :: known) (GoodPlan doc (name :: known) target)) :
    (⟨(name, own.result.toOption) :: own.found,
      own.result.map fun _ => .delegate name k.isNullable⟩ : Planned Plan).Meets doc known
        (GoodPlan doc known (.object k)) := by
  have hcomponent : doc.schema? name = some target := Document.schema?_of_resolve hresolve
  constructor
  · refine h.discovers.cons hnew hcomponent (fun _ _ h => h) ?_
    intro plan hplan
    rcases hresult : own.result with e | found
    · simp [hresult, Except.toOption] at hplan
    · simp only [hresult, Except.toOption, Option.some.injEq] at hplan
      exact hplan ▸ (h.result found hresult).1
  · intro plan hplan
    rcases hresult : own.result with e | found
    · simp [hresult, Except.map] at hplan
    · simp only [hresult, Except.map, Except.ok.injEq] at hplan
      refine ⟨hplan ▸ ⟨.shape (.reference hreference hresolve), .delegate (.inr ?_)⟩, ?_⟩
      · exact List.mem_cons_self
      · intro entry hentry
        rcases List.mem_cons.1 hentry with rfl | hrest
        · rfl
        · exact (h.result found hresult).2 entry hrest

/-- A property before others: they are walked with what it found, unless it fails. -/
theorem Planned.Meets.property {name : String} {schema : Schema} {rest : List (String × Schema)}
    {own : Planned Plan} {others : Planned (List (String × Plan))} {plan : Plan}
    (hplan : own.result = .ok plan) (hown : own.Meets doc known (GoodPlan doc known schema))
    (hothers : others.Meets doc (known ++ own.names)
      (GoodPlans doc (known ++ own.names) rest)) :
    (⟨own.found ++ others.found, others.result.map ((name, plan) :: ·)⟩ :
      Planned (List (String × Plan))).Meets doc known
        (GoodPlans doc known ((name, schema) :: rest)) := by
  have hnames : own.names ++ others.names = (own.found ++ others.found).map Prod.fst := by
    simp [Planned.names]
  constructor
  · exact hown.discovers.append hothers.discovers
  · intro plans hplans
    rcases hresult : others.result with e | tail
    · simp [hresult, Except.map] at hplans
    · simp only [hresult, Except.map, Except.ok.injEq] at hplans
      subst hplans
      obtain ⟨⟨htranslates, hplanNames⟩, hownAll⟩ := hown.result plan hplan
      obtain ⟨⟨htranslatesAll, htailNames⟩, hothersAll⟩ := hothers.result tail hresult
      refine ⟨⟨.cons htranslates htranslatesAll, ?_⟩, ?_⟩
      · intro property hmem
        rw [Planned.names, ← hnames]
        rcases List.mem_cons.1 hmem with rfl | htail
        · refine hplanNames.mono fun other hother => ?_
          rcases hother with hknown | hfound
          · exact .inl hknown
          · exact .inr (List.mem_append_left _ hfound)
        · refine (htailNames property htail).mono fun other hother => ?_
          rcases hother with hmiddle | hfound
          · rcases List.mem_append.1 hmiddle with hknown | hfirst
            · exact .inl hknown
            · exact .inr (List.mem_append_left _ hfirst)
          · exact .inr (List.mem_append_right _ hfound)
      · intro entry hentry
        rcases List.mem_append.1 hentry with hfirst | hsecond
        · exact hownAll entry hfirst
        · exact hothersAll entry hsecond

theorem Planned.Meets.error {α β : Type} {good : List String → α → Prop}
    {good' : List String → β → Prop} {own : Planned α} {e : GenerationError}
    (h : own.Meets doc known good) :
    (⟨own.found, .error e⟩ : Planned β).Meets doc known good' :=
  ⟨h.discovers, fun _ hb => by cases hb⟩

/-! ## The walk -/

mutual

/-- The induction is on the course of planning. -/
theorem Plans.meets : {known : List String} → {schema : Schema} → {planned : Planned Plan} →
    Plans doc known schema planned → planned.Meets doc known (GoodPlan doc known schema)
  | _, _, _, .boolean => .done ⟨.shape .boolean, .primitive⟩
  | _, _, _, .unresolved _ _ => .fail
  | _, _, _, .known hreference hresolve hknown =>
      .done ⟨.shape (.reference hreference hresolve), .delegate (.inl hknown)⟩
  | _, _, _, .new hreference hresolve hnew h => .reference hreference hresolve hnew h.meets
  | _, _, _, .union hreference hother h =>
      h.meets.map fun _ _ hgood => ⟨.wrapped hreference hother hgood.1, hgood.2.orNull⟩
  | _, _, _, .anyUnion hreference hother hunion =>
      .done ⟨.shape (.union hreference hother hunion), .primitive⟩
  | _, _, _, .array hplain htype hitems h =>
      h.meets.map fun _ _ hgood => ⟨.shape (.array hplain htype hitems hgood.1), .array hgood.2⟩
  | _, _, _, .bareArray hplain htype hitems =>
      .done ⟨.shape (.bareArray hplain htype hitems), .array .primitive⟩
  | _, _, _, .scalar hplain hscalar => .done ⟨.shape (.scalar hplain hscalar), .primitive⟩
  | _, _, _, .conflict _ _ _ _ => .fail
  | _, _, _, .map hopen hobject hproperties hvalues h =>
      h.meets.map fun _ _ hgood =>
        ⟨.shape (.map hopen hobject hproperties hvalues hgood.1), .map hgood.2⟩
  | _, _, _, .object hopen hobject hproperties hvalues h =>
      h.meets.map fun _ _ hgood =>
        ⟨.shape (.object hopen hobject hproperties hvalues hgood.1), .object hgood.2⟩
  | _, _, _, .empty _ _ _ _ => .fail
  | _, _, _, .date hopen hobject hformat =>
      .done ⟨.shape (.date hopen hobject hformat), .date trivial⟩
  | _, _, _, .text hopen hobject hformat =>
      .done ⟨.shape (.text hopen hobject hformat), .primitive⟩

theorem PlansAll.meets : {known : List String} → {properties : List (String × Schema)} →
    {planned : Planned (List (String × Plan))} → PlansAll doc known properties planned →
      planned.Meets doc known (GoodPlans doc known properties)
  | _, _, _, .nil => .done ⟨.nil, fun _ hmem => absurd hmem List.not_mem_nil⟩
  | _, _, _, .failed h _ => h.meets.error
  | _, _, _, .cons h hresult hrest => .property hresult h.meets hrest.meets

end

theorem planSchema_meets (doc : Document) (known : List String) (schema : Schema) :
    (planSchema doc known schema).Meets doc known (GoodPlan doc known schema) :=
  (planSchema_plans doc known schema).meets

/-- Planning a named type finds it first, with the schema that it was asked for. -/
theorem planType_discovers (doc : Document) (known : List String) (typeName : String)
    (schema : Schema) {origin : String → Schema → Prop} (horigin : origin typeName schema)
    (himp : ∀ name schema, Component doc name schema → origin name schema) :
    Discovers doc origin known (planType doc known typeName schema).found := by
  unfold planType
  split
  · exact .nil
  · rename_i hnew
    have h := planSchema_meets doc (typeName :: known) schema
    refine h.discovers.cons (by simpa using hnew) horigin himp ?_
    intro plan hplan
    rcases hresult : (planSchema doc (typeName :: known) schema).result with e | found
    · simp [hresult, Except.toOption] at hplan
    · simp only [hresult, Except.toOption, Option.some.injEq] at hplan
      exact hplan ▸ (h.result found hresult).1

/-- Whatever schema it is asked for. -/
theorem exists_discovers_planType (doc : Document) (known : List String) (typeName : String)
    (schema : Schema) :
    ∃ origin, Discovers doc origin known (planType doc known typeName schema).found :=
  ⟨fun name found => Component doc name found ∨ found = schema,
    planType_discovers doc known typeName schema (.inr rfl) fun _ _ h => .inl h⟩

/-- If it succeeds, all that it finds is planned. -/
theorem isSome_of_planType {doc : Document} {known : List String} {typeName : String}
    {schema : Schema} (hok : (planType doc known typeName schema).result = .ok ()) :
    ∀ entry ∈ (planType doc known typeName schema).found, entry.2.isSome := by
  unfold planType at hok ⊢
  split
  · simp [Planned.done]
  · rename_i hnew
    rw [if_neg hnew] at hok
    have h := planSchema_meets doc (typeName :: known) schema
    rcases hresult : (planSchema doc (typeName :: known) schema).result with e | plan
    · simp [hresult, Except.map] at hok
    · intro entry hentry
      rcases List.mem_cons.1 hentry with rfl | hrest
      · simp [hresult, Except.toOption]
      · exact (h.result plan hresult).2 entry hrest

end DateReviver
