import DateReviver.Proofs.Planning.Involvement

/-!
# The order of first references

A schema refers to types in the order in which they stand in it. From some types, the types that they
lead to are met depth first: a type, then what its component refers to, and then what comes after it.
Types that are known or have been met are passed over, and so each comes once, in the place of the first
reference to it.
-/

namespace DateReviver

open DateReviver.OpenApi

/-! ## The references of a schema -/

/-- The schemas inside of a schema that is no reference, in the order in which planning comes to them:
by the first rule that fits. -/
def OpenApi.Keywords.inner (k : Keywords Schema) : List Schema :=
  match k.unwrapNullable with
  | some other => [other]
  | none =>
      if k.anyOf.isSome then []
      else
        match k.primaryType with
        | some "array" => k.items.toList
        | some "boolean" | some "integer" | some "number" => []
        | _ =>
            if k.isObject then
              match k.properties, k.mapValues with
              | some properties, none => properties.map Prod.snd
              | none, some values => [values]
              | _, _ => []
            else []

theorem sizeOf_inner_lt {k : Keywords Schema} {schema : Schema} (h : schema ∈ k.inner) :
    sizeOf schema < sizeOf (Schema.object k) := by
  unfold Keywords.inner at h
  split at h
  · rename_i hother
    rw [List.mem_singleton] at h
    subst h
    exact sizeOf_unwrapNullable_lt hother
  · split at h
    · cases h
    · split at h
      · rw [Option.mem_toList] at h
        exact sizeOf_items_lt h
      · cases h
      · cases h
      · cases h
      · split at h
        · split at h
          · rename_i properties hproperties _
            obtain ⟨property, hmem, rfl⟩ := List.mem_map.1 h
            have hlt := List.sizeOf_lt_of_mem hmem
            have hproperty : sizeOf property.2 < sizeOf property := by
              cases property
              simp
            exact (hproperty.trans hlt).trans (sizeOf_properties_lt hproperties)
          · rename_i hvalues
            rw [List.mem_singleton] at h
            subst h
            exact sizeOf_mapValues_lt hvalues
          · cases h
        · cases h

/-- The types that a schema refers to, in the order of the references. -/
def OpenApi.Schema.references : Schema → List String
  | .boolean _ => []
  | .object k =>
      match k.reference with
      | some reference => (referencedName? reference).toList
      | none => k.inner.attach.flatMap fun schema => schema.1.references
termination_by schema => sizeOf schema
decreasing_by exact sizeOf_inner_lt schema.2

section References

variable {schema : Schema} {k : Keywords Schema} {parts : List (List Access × Schema)}
  {name : String}

theorem references_of_reference {reference : String} (hreference : k.reference = some reference)
    (hname : referencedName? reference = some name) : (Schema.object k).references = [name] := by
  rw [Schema.references, hreference]
  simp [hname]

theorem inner_of_open (hopen : IsOpen k) : k.inner =
    if k.isObject then
      match k.properties, k.mapValues with
      | some properties, none => properties.map Prod.snd
      | none, some values => [values]
      | _, _ => []
    else [] := by
  have hnotArray := hopen.notArray
  have hnotScalar := hopen.notScalar
  simp only [IsScalar, not_or] at hnotScalar
  unfold Keywords.inner
  rw [hopen.unwrapNullable, hopen.anyOf]
  split <;> simp_all

theorem inner_eq_of_inside (h : (Schema.object k).Inside parts) : k.inner = parts.map Prod.snd := by
  cases h with
  | union _ hother =>
      rw [Keywords.inner, hother]
      rfl
  | anyUnion _ hother hunion => simp [Keywords.inner, hother, hunion]
  | array hplain htype hitems | bareArray hplain htype hitems =>
      simp [Keywords.inner, hplain.unwrapNullable, hplain.anyOf, htype, hitems]
  | scalar hplain hscalar =>
      rcases hscalar with htype | htype | htype <;>
        simp [Keywords.inner, hplain.unwrapNullable, hplain.anyOf, htype]
  | map hopen hobject hproperties hvalues | object hopen hobject hproperties hvalues =>
      simp [inner_of_open hopen, hobject, hproperties, hvalues]
  | text hopen hobject => simp [inner_of_open hopen, hobject]

/-- A schema that is no reference refers to what the schemas inside of it refer to, one after the
other. -/
theorem references_of_inside (h : schema.Inside parts) :
    schema.references = parts.flatMap fun part => part.2.references := by
  cases schema with
  | boolean value =>
      cases h
      rw [Schema.references]
      rfl
  | object k =>
      rw [Schema.references, Walk.reference_of_inside h]
      simp [inner_eq_of_inside h, List.flatMap_map]

/-- Only what can be planned is looked into for references. -/
theorem exists_inside_of_inner (hreference : k.reference = none) (h : k.inner ≠ []) :
    ∃ parts, (Schema.object k).Inside parts := by
  rcases hother : k.unwrapNullable with _ | other
  · by_cases hunion : k.anyOf.isSome
    · exact ⟨_, .anyUnion hreference hother hunion⟩
    · have hplain : IsPlain k := ⟨hreference, hother, by simpa using hunion⟩
      by_cases htype : k.primaryType = some "array"
      · rcases hitems : k.items with _ | items
        · exact ⟨_, .bareArray hplain htype hitems⟩
        · exact ⟨_, .array hplain htype hitems⟩
      · by_cases hscalar : IsScalar k
        · exact ⟨_, .scalar hplain hscalar⟩
        · have hopen : IsOpen k := ⟨hplain, htype, hscalar⟩
          rcases hobject : k.isObject with _ | _
          · exact ⟨_, .text hopen hobject⟩
          · rw [inner_of_open hopen, if_pos hobject] at h
            split at h
            · rename_i hproperties hvalues
              exact ⟨_, .object hopen hobject hproperties hvalues⟩
            · rename_i hproperties hvalues
              exact ⟨_, .map hopen hobject hproperties hvalues⟩
            · exact absurd rfl h
  · exact ⟨_, .union hreference hother⟩

theorem mem_references_iff : name ∈ schema.references ↔ schema.Refers name := by
  constructor
  · intro h
    fun_induction Schema.references schema with
    | case1 => cases h
    | case2 k reference hreference => exact refers_of_reference hreference (Option.mem_toList.1 h)
    | case3 k hreference ih =>
        obtain ⟨⟨inner, hinner⟩, _, hname⟩ := List.mem_flatMap.1 h
        obtain ⟨parts, hinside⟩ := exists_inside_of_inner hreference (List.ne_nil_of_mem hinner)
        have hparts : inner ∈ parts.map Prod.snd := inner_eq_of_inside hinside ▸ hinner
        obtain ⟨part, hmem, rfl⟩ := List.mem_map.1 hparts
        exact (refers_iff_of_inside hinside).2 ⟨part, hmem, ih ⟨part.2, hinner⟩ hname⟩
  · rintro ⟨path, k, reference, hpart, hreference, hname⟩
    generalize hinner : Schema.object k = inner at hpart
    induction hpart with
    | here =>
        rw [← hinner, references_of_reference hreference hname]
        exact List.mem_singleton_self name
    | inside hinside hmem _ ih =>
        rw [references_of_inside hinside]
        exact List.mem_flatMap.2 ⟨_, hmem, ih hinner⟩

end References

/-! ## The types met from some types -/

/-- The types that are met from some types on, depth first, if so many names are known. -/
def OpenApi.Document.preorder (doc : Document) (known : List String) : List String → List String
  | [] => []
  | name :: rest =>
      match _hschema : doc.schema? name with
      | none => doc.preorder known rest
      | some schema =>
          if _hknown : known.contains name then doc.preorder known rest
          else
            let own := name :: doc.preorder (name :: known) schema.references
            own ++ doc.preorder (known ++ own) rest
termination_by names => (doc.schemas.countOutside known, names.length)
decreasing_by
  · exact Prod.Lex.right _ (Nat.lt_succ_self _)
  · exact Prod.Lex.right _ (Nat.lt_succ_self _)
  · apply Prod.Lex.left
    exact OrderedMap.countOutside_cons_lt (OrderedMap.mem_keys_of_get? _hschema) (by simpa using _hknown)
  · rcases Nat.lt_or_eq_of_le (OrderedMap.countOutside_append_le doc.schemas known own) with hlt | heq
    · exact Prod.Lex.left _ _ hlt
    · rw [heq]
      exact Prod.Lex.right _ (Nat.lt_succ_self _)

/-- The types that are met from some types on, depth first. -/
inductive OpenApi.Document.InPreorder (doc : Document) :
    (known names found : List String) → Prop
  | nil {known : List String} : InPreorder doc known [] []
  | passed {known rest found : List String} {name : String}
      (hname : name ∈ known ∨ doc.schema? name = none) (hrest : InPreorder doc known rest found) :
      InPreorder doc known (name :: rest) found
  | new {known rest below later : List String} {name : String} {schema : Schema}
      (hschema : doc.schema? name = some schema) (hnew : name ∉ known)
      (hbelow : InPreorder doc (name :: known) schema.references below)
      (hrest : InPreorder doc (known ++ name :: below) rest later) :
      InPreorder doc known (name :: rest) (name :: below ++ later)

/-- An item of two lists, one after the other, is in the first or in the second. -/
theorem split_append {α : Type} {first second before after : List α} {item : α}
    (h : first ++ second = before ++ item :: after) :
    (∃ rest, first = before ++ item :: rest ∧ after = rest ++ second) ∨
      ∃ rest, before = first ++ rest ∧ second = rest ++ item :: after := by
  rcases List.append_eq_append_iff.1 h with ⟨rest, hbefore, hsecond⟩ | ⟨rest, hfirst, hafter⟩
  · exact .inr ⟨rest, hbefore, hsecond⟩
  · rcases List.cons_eq_append_iff.1 hafter with ⟨rfl, hsecond⟩ | ⟨more, rfl, htail⟩
    · exact .inr ⟨[], by simpa using hfirst.symm, hsecond⟩
    · exact .inl ⟨more, hfirst, htail⟩

section Preorder

variable {doc : Document} {known known' names first second found other later : List String}
  {name : String} {schema : Schema}

theorem preorder_inPreorder (doc : Document) (known names : List String) :
    doc.InPreorder known names (doc.preorder known names) := by
  fun_induction Document.preorder doc known names with
  | case1 => exact .nil
  | case2 _ _ _ hnone ih => exact .passed (.inr hnone) ih
  | case3 _ _ _ _ _ hknown ih => exact .passed (.inl (by simpa using hknown)) ih
  | case4 _ _ _ _ hschema hnew _ ihbelow ihrest =>
      exact .new hschema (by simpa using hnew) ihbelow ihrest

namespace OpenApi.Document.InPreorder

theorem unique (h : doc.InPreorder known names found) (h' : doc.InPreorder known names other) :
    found = other := by
  induction h generalizing other with
  | nil =>
      cases h'
      rfl
  | passed hname _ ih =>
      cases h' with
      | passed _ hrest => exact ih hrest
      | new hschema hnew => simp_all
  | new hschema hnew _ _ ihbelow ihrest =>
      cases h' with
      | passed hname _ => simp_all
      | new hschema' _ hbelow hrest =>
          rw [hschema, Option.some_inj] at hschema'
          subst hschema'
          cases ihbelow hbelow
          cases ihrest hrest
          rfl

theorem eq_preorder (h : doc.InPreorder known names found) : found = doc.preorder known names :=
  h.unique (preorder_inPreorder doc known names)

/-- Only which names are known matters, not their order. -/
theorem congr (h : doc.InPreorder known names found) (hknown : ∀ n, n ∈ known ↔ n ∈ known') :
    doc.InPreorder known' names found := by
  induction h generalizing known' with
  | nil => exact .nil
  | passed hname _ ih => exact .passed (hname.imp_left (hknown _).1) (ih hknown)
  | new hschema hnew _ _ ihbelow ihrest =>
      refine .new hschema (fun hmem => hnew ((hknown _).2 hmem)) (ihbelow fun n => ?_)
        (ihrest fun n => ?_)
      · rw [List.mem_cons, List.mem_cons, hknown]
      · rw [List.mem_append, List.mem_append, hknown]

/-- Some types and then others: what the first lead to is known to the second. -/
theorem append (h : doc.InPreorder known first found)
    (hsecond : doc.InPreorder (known ++ found) second later) :
    doc.InPreorder known (first ++ second) (found ++ later) := by
  induction h generalizing later with
  | nil => simpa using hsecond
  | passed hname _ ih => exact .passed hname (ih hsecond)
  | new hschema hnew hbelow _ _ ihrest =>
      rw [← List.append_assoc] at hsecond
      rw [List.append_assoc]
      exact .new hschema hnew hbelow (ihrest hsecond)

/-- No type comes twice, and none that is known. -/
theorem nodup (h : doc.InPreorder known names found) :
    found.Nodup ∧ ∀ name ∈ found, name ∉ known := by
  induction h with
  | nil => exact ⟨.nil, fun _ hmem => absurd hmem List.not_mem_nil⟩
  | passed _ _ ih => exact ih
  | @new known rest below later name schema _ hnew _ _ ihbelow ihrest =>
      obtain ⟨hbelow, hfresh⟩ := ihbelow
      obtain ⟨hlater, hapart⟩ := ihrest
      simp only [List.mem_append, not_or] at hapart
      have hown : (name :: below).Nodup :=
        List.nodup_cons.2 ⟨fun hmem => hfresh name hmem List.mem_cons_self, hbelow⟩
      refine ⟨List.nodup_append.2 ⟨hown, hlater, ?_⟩, fun other hmem => ?_⟩
      · rintro other hmem _ hother rfl
        exact (hapart other hother).2 hmem
      · rcases List.mem_append.1 hmem with hown | hother
        · rcases List.mem_cons.1 hown with rfl | hinside
          · exact hnew
          · exact fun hold => hfresh other hinside (List.mem_cons_of_mem _ hold)
        · exact (hapart other hother).1

/-- Nothing that is asked for is left out. -/
theorem mem_of_asked (h : doc.InPreorder known names found) (hmem : name ∈ names)
    (hschema : doc.schema? name = some schema) : name ∈ known ∨ name ∈ found := by
  induction h with
  | nil => cases hmem
  | passed hname _ ih =>
      rcases List.mem_cons.1 hmem with rfl | hrest
      · exact .inl (hname.resolve_right (by simp [hschema]))
      · exact ih hrest
  | new _ _ _ _ _ ihrest =>
      rcases List.mem_cons.1 hmem with rfl | hrest
      · exact .inr List.mem_cons_self
      · rcases ihrest hrest with hbefore | hlater
        · rw [List.mem_append] at hbefore
          exact hbefore.imp_right (List.mem_append_left _)
        · exact .inr (List.mem_append_right _ hlater)

/-- What the component of a type refers to is not left out either. -/
theorem mem_of_refers {next : String} {target : Schema} (h : doc.InPreorder known names found)
    (hmem : name ∈ found) (hschema : doc.schema? name = some schema) (hrefers : schema.Refers next)
    (htarget : doc.schema? next = some target) : next ∈ known ∨ next ∈ found := by
  induction h with
  | nil => cases hmem
  | passed _ _ ih => exact ih hmem
  | @new known rest below later head own hown _ hbelow _ ihbelow ihrest =>
      have hinside : next ∈ head :: known ∨ next ∈ below →
          next ∈ known ∨ next ∈ head :: below ++ later := by
        simp only [List.mem_cons, List.mem_append]
        tauto
      rcases List.mem_append.1 hmem with hhead | hlater
      · rcases List.mem_cons.1 hhead with rfl | hmem
        · rw [hown, Option.some_inj] at hschema
          subst hschema
          exact hinside (hbelow.mem_of_asked (mem_references_iff.2 hrefers) htarget)
        · exact hinside (ihbelow hmem)
      · rcases ihrest hlater with hbefore | hmem
        · rw [List.mem_append] at hbefore
          exact hbefore.imp_right (List.mem_append_left _)
        · exact .inr (List.mem_append_right _ hmem)

/-- After a type comes what its component leads to, in the order of its references, as far as it was
not met before. -/
theorem followed (h : doc.InPreorder known names found) (hfound : found = first ++ name :: second) :
    ∃ schema below later, doc.schema? name = some schema ∧ second = below ++ later ∧
      doc.InPreorder (known ++ (first ++ [name])) schema.references below := by
  induction h generalizing first second with
  | nil => simp at hfound
  | passed _ _ ih => exact ih hfound
  | @new known rest below later head schema hschema _ hbelow _ ihbelow ihrest =>
      rcases first with _ | ⟨top, first⟩
      · obtain ⟨rfl, rfl⟩ : head = name ∧ below ++ later = second := by simpa using hfound
        exact ⟨schema, below, later, hschema, rfl, hbelow.congr fun n => by simp [or_comm]⟩
      · obtain ⟨rfl, hsplit⟩ : head = top ∧ below ++ later = first ++ name :: second := by
          simpa using hfound
        rcases split_append hsplit with ⟨rest, rfl, rfl⟩ | ⟨rest, rfl, rfl⟩
        · obtain ⟨schema, inside, after, hown, rfl, hinside⟩ := ihbelow rfl
          refine ⟨schema, inside, after ++ later, hown, List.append_assoc .., ?_⟩
          exact hinside.congr fun n => by simp [or_left_comm]
        · obtain ⟨schema, inside, after, hown, rfl, hinside⟩ := ihrest rfl
          refine ⟨schema, inside, after, hown, rfl, ?_⟩
          exact hinside.congr fun n => by simp

end OpenApi.Document.InPreorder

/-- A type leads to another: from component to component, each of them of no known name. -/
inductive OpenApi.Document.LeadsTo (doc : Document) (known : List String) : String → String → Prop
  | here {name : String} {schema : Schema} (hschema : doc.schema? name = some schema)
      (hnew : name ∉ known) : LeadsTo doc known name name
  | step {name next last : String} {schema : Schema} (hschema : doc.schema? name = some schema)
      (hnew : name ∉ known) (hrefers : schema.Refers next) (h : LeadsTo doc known next last) :
      LeadsTo doc known name last

namespace OpenApi.Document

theorem LeadsTo.schema? {last : String} (h : doc.LeadsTo known name last) :
    ∃ schema, doc.schema? name = some schema := by
  cases h with
  | here hschema | step hschema => exact ⟨_, hschema⟩

theorem LeadsTo.mono {last : String} (h : doc.LeadsTo known name last)
    (hsub : ∀ n, n ∈ known' → n ∈ known) : doc.LeadsTo known' name last := by
  induction h with
  | here hschema hnew => exact .here hschema fun hmem => hnew (hsub _ hmem)
  | step hschema hnew hrefers _ ih => exact .step hschema (fun hmem => hnew (hsub _ hmem)) hrefers ih

theorem InPreorder.exists_leadsTo (h : doc.InPreorder known names found) (hmem : name ∈ found) :
    ∃ start ∈ names, doc.LeadsTo known start name := by
  induction h with
  | nil => cases hmem
  | passed _ _ ih =>
      obtain ⟨start, hstart, hleads⟩ := ih hmem
      exact ⟨start, List.mem_cons_of_mem _ hstart, hleads⟩
  | @new known rest below later head schema hschema hnew _ _ ihbelow ihrest =>
      rcases List.mem_append.1 hmem with hhead | hlater
      · rcases List.mem_cons.1 hhead with rfl | hbelow
        · exact ⟨name, List.mem_cons_self, .here hschema hnew⟩
        · obtain ⟨start, hstart, hleads⟩ := ihbelow hbelow
          exact ⟨head, List.mem_cons_self, .step hschema hnew (mem_references_iff.1 hstart)
            (hleads.mono fun _ => List.mem_cons_of_mem _)⟩
      · obtain ⟨start, hstart, hleads⟩ := ihrest hlater
        exact ⟨start, List.mem_cons_of_mem _ hstart, hleads.mono fun _ => List.mem_append_left _⟩

/-- Whoever leads to a type is met before or leads from one that is met, and so on to the type. -/
theorem InPreorder.mem_of_leadsTo {last : String} (h : doc.InPreorder known names found)
    (hleads : doc.LeadsTo known name last) (hmem : name ∈ known ∨ name ∈ found) : last ∈ found := by
  induction hleads with
  | here _ hnew => exact hmem.resolve_left hnew
  | step hschema hnew hrefers hrest ih =>
      obtain ⟨target, htarget⟩ := hrest.schema?
      exact ih (h.mem_of_refers (hmem.resolve_left hnew) hschema hrefers htarget)

theorem InPreorder.mem_iff (h : doc.InPreorder known names found) :
    name ∈ found ↔ ∃ start ∈ names, doc.LeadsTo known start name := by
  refine ⟨h.exists_leadsTo, ?_⟩
  rintro ⟨start, hstart, hleads⟩
  obtain ⟨schema, hschema⟩ := hleads.schema?
  exact h.mem_of_leadsTo hleads (h.mem_of_asked hstart hschema)

/-- An order in which types are met depth first. No type comes twice, and exactly those come that are
led to past the known ones. A type that is asked for and not known comes before all that is asked for
with it. What some types lead to comes before what is only led to from types that are asked for later. And
after a type comes what its component leads to, by the order of its references, as far as it was not met
before. -/
structure DepthFirst (doc : Document) (order : (known names : List String) → List String) : Prop where
  nodup : ∀ known names, (order known names).Nodup
  mem_iff : ∀ known names name,
    name ∈ order known names ↔ ∃ start ∈ names, doc.LeadsTo known start name
  first : ∀ known name rest schema, doc.schema? name = some schema → name ∉ known →
    ∃ later, order known (name :: rest) = name :: later
  append : ∀ known before after,
    order known (before ++ after) = order known before ++ order (known ++ order known before) after
  followed : ∀ known names before name after, order known names = before ++ name :: after →
    ∃ schema later, doc.schema? name = some schema ∧
      after = order (known ++ (before ++ [name])) schema.references ++ later

theorem preorder_depthFirst (doc : Document) : doc.DepthFirst doc.preorder := by
  constructor
  · exact fun known names => (preorder_inPreorder doc known names).nodup.1
  · exact fun known names _ => (preorder_inPreorder doc known names).mem_iff
  · intro known name rest schema hschema hnew
    have hbelow := preorder_inPreorder doc (name :: known) schema.references
    exact ⟨_, (InPreorder.new hschema hnew hbelow (preorder_inPreorder doc _ rest)).eq_preorder.symm⟩
  · intro known before after
    have hbefore := preorder_inPreorder doc known before
    exact (hbefore.append (preorder_inPreorder doc _ after)).eq_preorder.symm
  · intro known names before name after horder
    obtain ⟨schema, below, later, hschema, rfl, hbelow⟩ :=
      (preorder_inPreorder doc known names).followed horder
    exact ⟨schema, later, hschema, by rw [hbelow.eq_preorder]⟩

section Unique

variable {order : (known names : List String) → List String} (horder : doc.DepthFirst order)

include horder

/-- Nothing is met from a type that is known or is no component. -/
theorem DepthFirst.passed (hname : name ∈ known ∨ doc.schema? name = none) :
    order known [name] = [] := by
  refine List.eq_nil_iff_forall_not_mem.2 fun other hmem => ?_
  obtain ⟨start, hstart, hleads⟩ := (horder.mem_iff known [name] other).1 hmem
  rw [List.mem_singleton] at hstart
  subst hstart
  cases hleads with
  | here hschema hnew | step hschema hnew =>
      rcases hname with hold | hnone
      · exact hnew hold
      · simp [hschema] at hnone

/-- From a new type, what comes after it is met from the references of its component. -/
theorem DepthFirst.new {below : List String} (hschema : doc.schema? name = some schema)
    (hnew : name ∉ known) (hbelow : doc.InPreorder (name :: known) schema.references below)
    (hreferences : order (known ++ [name]) schema.references = below) :
    order known [name] = name :: below := by
  obtain ⟨after, hafter⟩ := horder.first known name [] schema hschema hnew
  obtain ⟨own, later, hown, rfl⟩ := horder.followed known [name] [] name after hafter
  rw [hschema, Option.some_inj] at hown
  subst hown
  rw [List.nil_append, hreferences] at hafter
  have hsingle : doc.InPreorder known [name] (name :: below) := by
    simpa using InPreorder.new hschema hnew hbelow .nil
  have hnodup := horder.nodup known [name]
  have hlater : later = [] := by
    refine List.eq_nil_iff_forall_not_mem.2 fun other hmem => ?_
    have hmet : other ∈ order known [name] := by
      rw [hafter]
      exact List.mem_cons_of_mem _ (List.mem_append_right _ hmem)
    rw [horder.mem_iff, ← hsingle.mem_iff] at hmet
    rw [hafter, ← List.cons_append, List.nodup_append] at hnodup
    exact hnodup.2.2 other hmet other hmem rfl
  rw [hafter, hlater, List.append_nil]

/-- The induction is on the preorder, with the known types in any order. -/
theorem InPreorder.eq_order (h : doc.InPreorder known names found)
    (hknown : ∀ n, n ∈ known ↔ n ∈ known') : order known' names = found := by
  induction h generalizing known' with
  | nil =>
      refine List.eq_nil_iff_forall_not_mem.2 fun name hmem => ?_
      obtain ⟨_, hstart, _⟩ := (horder.mem_iff _ _ _).1 hmem
      cases hstart
  | @passed known rest found name hname _ ih =>
      have hrest := horder.append known' [name] rest
      rw [horder.passed (hname.imp_left (hknown name).1), List.nil_append, List.append_nil] at hrest
      exact hrest.trans (ih hknown)
  | @new known rest below later name schema hschema hnew hbelow _ ihbelow ihrest =>
      have hnew' : name ∉ known' := fun hmem => hnew ((hknown name).2 hmem)
      have hsingle : order known' [name] = name :: below :=
        horder.new hschema hnew' (hbelow.congr fun n => by simp [hknown])
          (ihbelow fun n => by simp [hknown, or_comm])
      have hrest := horder.append known' [name] rest
      rw [hsingle, ihrest fun n => by simp [hknown]] at hrest
      exact hrest

end Unique

/-- There is one depth-first order only. -/
theorem depthFirst_iff {order : (known names : List String) → List String} :
    doc.DepthFirst order ↔ order = doc.preorder := by
  constructor
  · intro horder
    funext known names
    exact (preorder_inPreorder doc known names).eq_order horder fun _ => .rfl
  · rintro rfl
    exact preorder_depthFirst doc

end OpenApi.Document

end Preorder

/-! ## Planning meets types in this order -/

section Planning

variable {doc : Document} {known found : List String} {schema inner : Schema} {steps : List Access}

theorem inPreorder_of_nothing (h : schema.Inside []) :
    doc.InPreorder known schema.references [] := by
  rw [references_of_inside h]
  exact .nil

theorem inPreorder_of_single (h : schema.Inside [(steps, inner)])
    (hinner : doc.InPreorder known inner.references found) :
    doc.InPreorder known schema.references found := by
  rw [references_of_inside h, List.flatMap_singleton]
  exact hinner

theorem exists_ok_of_map {α β : Type} {f : α → β} {result : Except GenerationError α} {b : β}
    (h : result.map f = .ok b) : ∃ a, result = .ok a := by
  cases result with
  | error e => cases h
  | ok a => exact ⟨a, rfl⟩

mutual

/-- A schema that is planned to its end. The induction is on the course of planning. -/
theorem Plans.inPreorder : {known : List String} → {schema : Schema} → {planned : Planned Plan} →
    Plans doc known schema planned → {plan : Plan} → planned.result = .ok plan →
      doc.InPreorder known schema.references planned.names
  | _, _, _, .boolean, _, _ => inPreorder_of_nothing .boolean
  | _, _, _, .known hreference hresolve hmem, _, _ => by
      obtain ⟨hname, _⟩ := Document.resolve_eq_ok_iff.1 hresolve
      rw [references_of_reference hreference hname]
      exact .passed (.inl hmem) .nil
  | _, _, _, .new hreference hresolve hnew h, _, hok => by
      obtain ⟨hname, htarget⟩ := Document.resolve_eq_ok_iff.1 hresolve
      obtain ⟨plan, hplan⟩ := exists_ok_of_map hok
      have hnames := Document.InPreorder.new htarget hnew (h.inPreorder hplan) .nil
      rw [List.append_nil] at hnames
      rw [references_of_reference hreference hname]
      exact hnames
  | _, _, _, .union hreference hother h, _, hok => by
      obtain ⟨plan, hplan⟩ := exists_ok_of_map hok
      exact inPreorder_of_single (.union hreference hother) (h.inPreorder hplan)
  | _, _, _, .anyUnion hreference hother hunion, _, _ =>
      inPreorder_of_nothing (.anyUnion hreference hother hunion)
  | _, _, _, .array hplain htype hitems h, _, hok => by
      obtain ⟨plan, hplan⟩ := exists_ok_of_map hok
      exact inPreorder_of_single (.array hplain htype hitems) (h.inPreorder hplan)
  | _, _, _, .bareArray hplain htype hitems, _, _ =>
      inPreorder_of_nothing (.bareArray hplain htype hitems)
  | _, _, _, .scalar hplain hscalar, _, _ => inPreorder_of_nothing (.scalar hplain hscalar)
  | _, _, _, .map hopen hobject hproperties hvalues h, _, hok => by
      obtain ⟨plan, hplan⟩ := exists_ok_of_map hok
      exact inPreorder_of_single (.map hopen hobject hproperties hvalues) (h.inPreorder hplan)
  | _, _, _, .object hopen hobject hproperties hvalues h, _, hok => by
      obtain ⟨plans, hplans⟩ := exists_ok_of_map hok
      rw [references_of_inside (.object hopen hobject hproperties hvalues), List.flatMap_map]
      exact h.inPreorder hplans
  | _, _, _, .date hopen hobject _, _, _ => inPreorder_of_nothing (.text hopen hobject)
  | _, _, _, .text hopen hobject _, _, _ => inPreorder_of_nothing (.text hopen hobject)
  | _, _, _, .unresolved .., _, hok | _, _, _, .conflict .., _, hok | _, _, _, .empty .., _, hok =>
      nomatch hok

/-- Properties that are planned to their end, one after the other. -/
theorem PlansAll.inPreorder : {known : List String} → {properties : List (String × Schema)} →
    {planned : Planned (List (String × Plan))} → PlansAll doc known properties planned →
      {plans : List (String × Plan)} → planned.result = .ok plans →
        doc.InPreorder known (properties.flatMap fun property => property.2.references) planned.names
  | _, _, _, .nil, _, _ => .nil
  | _, _, _, .failed _ _, _, hok => nomatch hok
  | _, _, _, .cons h hresult hrest, _, hok => by
      obtain ⟨plans, hplans⟩ := exists_ok_of_map hok
      rw [Planned.names, List.map_append, List.flatMap_cons]
      exact (h.inPreorder hresult).append (hrest.inPreorder hplans)

end

theorem planType_inPreorder {typeName : String} (hschema : doc.schema? typeName = some schema)
    (hok : (planType doc known typeName schema).result = .ok ()) :
    doc.InPreorder known [typeName] (planType doc known typeName schema).names := by
  unfold planType at hok ⊢
  split
  · rename_i hknown
    exact .passed (.inl (by simpa using hknown)) .nil
  · rename_i hnew
    rw [if_neg hnew] at hok
    obtain ⟨plan, hplan⟩ := exists_ok_of_map hok
    have hown := (planSchema_plans doc (typeName :: known) schema).inPreorder hplan
    have hnames := Document.InPreorder.new hschema (by simpa using hnew) hown .nil
    rwa [List.append_nil] at hnames

end Planning

end DateReviver
