import DateReviver.Proofs.Planning.Walk

/-!
# The types that a generation is about

A generation is about the requested types, the types that the responses of its operations refer to,
and the types that the components of these refer to in turn. The walk over a document meets these
types and no others, however they lead back to one another: nothing else ever comes onto its agenda,
and whatever is owed to a type that was met is on the agenda until it has been met as well.
-/

namespace DateReviver

open DateReviver.OpenApi

/-- A type that the options are about: a requested one, or one that is referred to by a response or
by the component of another such type. -/
inductive Options.Involves (options : Options) (doc : Document) : String → Prop
  | requested {typeName : String} (h : typeName ∈ options.requested doc) :
      Involves options doc typeName
  | response {endpoint : Endpoint} {schema : Schema} {typeName : String}
      (hmem : endpoint ∈ options.operations doc)
      (hoffer : endpoint.operation.offer? = some (.inr schema)) (hrefers : schema.Refers typeName) :
      Involves options doc typeName
  | component {other typeName : String} {schema : Schema} (h : Involves options doc other)
      (hschema : doc.schema? other = some schema) (hrefers : schema.Refers typeName) :
      Involves options doc typeName

/-! ## What a schema refers to -/

section Refers

variable {k : Keywords Schema} {schema : Schema} {parts : List (List Access × Schema)}
  {typeName : String}

theorem refers_of_reference {reference : String} (hreference : k.reference = some reference)
    (hname : referencedName? reference = some typeName) : (Schema.object k).Refers typeName :=
  ⟨[], k, reference, .here, hreference, hname⟩

/-- A reference refers to one type only: no schemas stand in it. -/
theorem eq_of_refers_of_reference {reference name : String}
    (hreference : k.reference = some reference) (hname : referencedName? reference = some name)
    (h : (Schema.object k).Refers typeName) : typeName = name := by
  obtain ⟨path, k', reference', hpart, hreference', hname'⟩ := h
  cases hpart with
  | here =>
      rw [hreference, Option.some_inj] at hreference'
      subst hreference'
      rw [hname, Option.some_inj] at hname'
      exact hname'.symm
  | inside hinside => simp [Walk.reference_of_inside hinside] at hreference

/-- A schema that is no reference refers to what the schemas inside of it refer to. -/
theorem refers_iff_of_inside (hinside : schema.Inside parts) :
    schema.Refers typeName ↔ ∃ part ∈ parts, part.2.Refers typeName := by
  constructor
  · rintro ⟨path, k, reference, hpart, hreference, hname⟩
    cases hpart with
    | here => simp [Walk.reference_of_inside hinside] at hreference
    | inside hother hmem hinner =>
        rw [Walk.inside_unique hother hinside] at hmem
        exact ⟨_, hmem, _, k, reference, hinner, hreference, hname⟩
  · rintro ⟨part, hmem, hrefers⟩
    exact (Schema.Part.inside hinside hmem .here).refers hrefers

end Refers

namespace Walk

/-- What an item of the agenda asks for: the types that it names or refers to. -/
def Item.Asks : Item → String → Prop
  | .type name, typeName => typeName = name
  | .endpoint source, typeName =>
      ∃ schema, source.operation.offer? = some (.inr schema) ∧ schema.Refers typeName
  | .schema source, typeName => source.Refers typeName

variable {doc : Document} {options : Options} {w w' : Walk} {typeName : String}

theorem asks_schema {schema : Schema} : (Item.schema schema).Asks typeName ↔
    schema.Refers typeName :=
  .rfl

theorem exists_mem_items_asks {parts : List (List Access × Schema)} :
    (∃ item ∈ items parts, item.Asks typeName) ↔ ∃ part ∈ parts, part.2.Refers typeName := by
  simp [items, Item.Asks]

/-- What a step does: it takes an item from the agenda, meets some new types and puts new items on
the agenda. The types that the item asks for are met or asked for by the new items, which ask for
nothing but these and what the components of the new types refer to. -/
structure Takes (doc : Document) (w w' : Walk) (item : Item) (rest new : List Item)
    (fresh : List String) : Prop where
  before : w.ahead = item :: rest
  after : w'.ahead = new ++ rest
  met : w'.met = w.met ++ fresh
  asked : ∀ name ∈ fresh, item.Asks name
  answered : ∀ name, item.Asks name → name ∈ w'.met ∨ ∃ i ∈ new, i.Asks name
  sourced : ∀ i ∈ new, ∀ name, i.Asks name → item.Asks name ∨
    ∃ other ∈ fresh, ∃ schema, doc.schema? other = some schema ∧ schema.Refers name
  followed : ∀ other ∈ fresh, ∀ schema, doc.schema? other = some schema →
    ∀ name, schema.Refers name → ∃ i ∈ new, i.Asks name

section Takes

variable {met taken taken' : List String} {item : Item} {rest new after : List Item}

/-- A step that passes over an item: what it asks for has been met. -/
theorem Takes.passed (h : ∀ name, item.Asks name → name ∈ met) :
    Takes doc ⟨met, taken, item :: rest⟩ ⟨met, taken', rest⟩ item rest [] [] := by
  constructor <;> simp
  exact h

/-- A step that replaces an item by others, which ask for the same. -/
theorem Takes.replaced (hafter : after = new ++ rest)
    (h : ∀ name, item.Asks name ↔ ∃ i ∈ new, i.Asks name) :
    Takes doc ⟨met, taken, item :: rest⟩ ⟨met, taken', after⟩ item rest new [] := by
  subst hafter
  constructor <;> simp
  · exact fun name hasks => .inr ((h name).1 hasks)
  · exact fun i hi name hasks => (h name).2 ⟨i, hi, hasks⟩

/-- A step that meets a new type, the only one that the item asks for. -/
theorem Takes.opened {name : String} {schema : Schema} (hschema : doc.schema? name = some schema)
    (h : ∀ other, item.Asks other ↔ other = name) :
    Takes doc ⟨met, taken, item :: rest⟩ ⟨met ++ [name], taken', .schema schema :: rest⟩ item rest
      [.schema schema] [name] := by
  constructor <;> simp +contextual [h, hschema, asks_schema]

end Takes

theorem Step.takes (h : Step doc w w') : ∃ item rest new fresh, Takes doc w w' item rest new fresh := by
  cases h with
  | knownType hschema hmet =>
      refine ⟨_, _, _, _, .passed ?_⟩
      rintro name rfl
      exact hmet
  | newType hschema hmet => exact ⟨_, _, _, _, .opened hschema fun _ => .rfl⟩
  | noResponse htaken hoffer =>
      refine ⟨_, _, _, _, .passed ?_⟩
      rintro name ⟨schema, hsome, _⟩
      simp [hoffer] at hsome
  | @response met taken ahead endpoint schema htaken hoffer =>
      refine ⟨_, _, [.schema schema], _, .replaced rfl fun name => ?_⟩
      simp [Item.Asks, hoffer]
  | knownReference hreference hname htarget hmet =>
      refine ⟨_, _, _, _, .passed fun name hasks => ?_⟩
      rw [eq_of_refers_of_reference hreference hname hasks]
      exact hmet
  | newReference hreference hname htarget hmet =>
      refine ⟨_, _, _, _, .opened htarget fun name => ⟨?_, ?_⟩⟩
      · exact eq_of_refers_of_reference hreference hname
      · rintro rfl
        exact refers_of_reference hreference hname
  | @inside met taken ahead schema parts hinside =>
      refine ⟨_, _, _, _, .replaced rfl fun name => ?_⟩
      rw [exists_mem_items_asks]
      exact refers_iff_of_inside hinside

/-! ## Nothing else is met -/

/-- Only types that the options are about have been met or are asked for. -/
structure Pertinent (options : Options) (doc : Document) (w : Walk) : Prop where
  met : ∀ typeName ∈ w.met, options.Involves doc typeName
  ahead : ∀ item ∈ w.ahead, ∀ typeName, item.Asks typeName → options.Involves doc typeName

theorem pertinent_start : (start options doc).Pertinent options doc := by
  refine ⟨fun typeName hmem => absurd hmem List.not_mem_nil, fun item hmem typeName hasks => ?_⟩
  rcases List.mem_append.1 hmem with htype | hendpoint
  · obtain ⟨name, hname, rfl⟩ := List.mem_map.1 htype
    cases hasks
    exact .requested hname
  · obtain ⟨endpoint, hasked, rfl⟩ := List.mem_map.1 hendpoint
    obtain ⟨schema, hoffer, hrefers⟩ := hasks
    exact .response hasked hoffer hrefers

theorem Step.pertinent (hstep : Step doc w w') (h : w.Pertinent options doc) :
    w'.Pertinent options doc := by
  obtain ⟨item, rest, new, fresh, htakes⟩ := hstep.takes
  have hitem : ∀ name, item.Asks name → options.Involves doc name :=
    h.ahead item (by rw [htakes.before]; exact List.mem_cons_self)
  have hfresh : ∀ name ∈ fresh, options.Involves doc name := fun name hmem =>
    hitem name (htakes.asked name hmem)
  constructor
  · intro name hmem
    rw [htakes.met, List.mem_append] at hmem
    exact hmem.elim (h.met name) (hfresh name)
  · intro i hi name hasks
    rw [htakes.after, List.mem_append] at hi
    rcases hi with hnew | hrest
    · rcases htakes.sourced i hnew name hasks with hasked | ⟨other, hother, schema, hschema, hrefers⟩
      · exact hitem name hasked
      · exact .component (hfresh other hother) hschema hrefers
    · exact h.ahead i (by rw [htakes.before]; exact List.mem_cons_of_mem _ hrest) name hasks

/-! ## Nothing is left out -/

/-- A type has been met, or something on the agenda asks for it. -/
def Owes (w : Walk) (typeName : String) : Prop :=
  typeName ∈ w.met ∨ ∃ item ∈ w.ahead, item.Asks typeName

/-- What is owed stays owed until it is met. -/
theorem Step.owes (hstep : Step doc w w') (h : w.Owes typeName) : w'.Owes typeName := by
  obtain ⟨item, rest, new, fresh, htakes⟩ := hstep.takes
  unfold Owes
  rw [htakes.after]
  rcases h with hmet | ⟨i, hi, hasks⟩
  · left
    rw [htakes.met]
    exact List.mem_append_left _ hmet
  · rw [htakes.before] at hi
    rcases List.mem_cons.1 hi with rfl | hrest
    · rcases htakes.answered typeName hasks with hmet | ⟨i, hnew, hasks⟩
      · exact .inl hmet
      · exact .inr ⟨i, List.mem_append_left _ hnew, hasks⟩
    · exact .inr ⟨i, List.mem_append_right _ hrest, hasks⟩

/-- Whatever the options ask for, and whatever a type refers to that was met, is owed. -/
structure Diligent (options : Options) (doc : Document) (w : Walk) : Prop where
  start : ∀ typeName, (start options doc).Owes typeName → w.Owes typeName
  met : ∀ other ∈ w.met, ∀ schema, doc.schema? other = some schema →
    ∀ typeName, schema.Refers typeName → w.Owes typeName

theorem diligent_start : (start options doc).Diligent options doc :=
  ⟨fun _ h => h, fun _ hmem => absurd hmem List.not_mem_nil⟩

theorem Step.diligent (hstep : Step doc w w') (h : w.Diligent options doc) :
    w'.Diligent options doc := by
  refine ⟨fun name hname => hstep.owes (h.start name hname), ?_⟩
  obtain ⟨item, rest, new, fresh, htakes⟩ := hstep.takes
  intro other hother schema hschema name hrefers
  rw [htakes.met, List.mem_append] at hother
  rcases hother with hmet | hfresh
  · exact hstep.owes (h.met other hmet schema hschema name hrefers)
  · obtain ⟨i, hnew, hasks⟩ := htakes.followed other hfresh schema hschema name hrefers
    refine .inr ⟨i, ?_, hasks⟩
    rw [htakes.after]
    exact List.mem_append_left _ hnew

/-! ## The whole walk -/

theorem Steps.invariant {P : Walk → Prop} (hstep : ∀ w w', Step doc w w' → P w → P w')
    (h : Steps doc w w') (hw : P w) : P w' := by
  induction h with
  | refl => exact hw
  | tail _ hlast ih => exact hstep _ _ hlast ih

/-- A walk that has come to its end has met exactly the types that the options are about. -/
theorem mem_met_iff_involves {met taken : List String}
    (h : Steps doc (start options doc) ⟨met, taken, []⟩) :
    typeName ∈ met ↔ options.Involves doc typeName := by
  have hpertinent := h.invariant (fun _ _ => Step.pertinent) pertinent_start
  have hdiligent := h.invariant (fun _ _ => Step.diligent) diligent_start
  have hmet : ∀ name, Owes ⟨met, taken, []⟩ name → name ∈ met := by
    rintro name (hmem | ⟨item, hitem, _⟩)
    · exact hmem
    · cases hitem
  constructor
  · exact hpertinent.met typeName
  · intro hinvolves
    induction hinvolves with
    | requested hmem =>
        refine hmet _ (hdiligent.start _ (.inr ⟨.type _, ?_, rfl⟩))
        exact List.mem_append_left _ (List.mem_map_of_mem hmem)
    | response hmem hoffer hrefers =>
        refine hmet _ (hdiligent.start _ (.inr ⟨.endpoint _, ?_, _, hoffer, hrefers⟩))
        exact List.mem_append_right _ (List.mem_map_of_mem hmem)
    | component _ hschema hrefers ih => exact hmet _ (hdiligent.met _ ih _ hschema _ hrefers)

/-- No two operations of a walk that goes on have one name. -/
theorem Step.nodup_taken (hstep : Step doc w w') (h : w.taken.Nodup) : w'.taken.Nodup := by
  cases hstep with
  | noResponse htaken | response htaken => exact List.nodup_cons.2 ⟨htaken, h⟩
  | _ => exact h

theorem Steps.nodup_taken (h : Steps doc (start options doc) w) : w.taken.Nodup :=
  h.invariant (fun _ _ => Step.nodup_taken) List.nodup_nil

end Walk

end DateReviver
