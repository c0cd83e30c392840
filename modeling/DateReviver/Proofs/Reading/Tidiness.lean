import DateReviver.Proofs.Planning.Tidiness
import DateReviver.Reading.Document

/-!
# Documents that are read

The properties of a schema are read as a table, in which a name that is given twice keeps its first
place and its last schema. So every schema that is read has distinct names of properties, at any
depth and in any notation.
-/

namespace DateReviver

open DateReviver.OpenApi DateReviver.Reading

theorem OrderedMap.mem_put {α : Type} {name : String} {value : α} {entry : String × α}
    {entries : List (String × α)} (h : entry ∈ OrderedMap.put name value entries) :
    entry = (name, value) ∨ entry ∈ entries := by
  induction entries with
  | nil => exact .inl (List.mem_singleton.1 h)
  | cons first rest ih =>
      rw [OrderedMap.put] at h
      split at h
      · rcases List.mem_cons.1 h with heq | hrest
        · exact .inl heq
        · exact .inr (List.mem_cons_of_mem _ hrest)
      · rcases List.mem_cons.1 h with heq | hrest
        · exact .inr (heq ▸ List.mem_cons_self)
        · exact (ih hrest).imp_right (List.mem_cons_of_mem _)

theorem OrderedMap.mem_insertAll {α : Type} {m : OrderedMap α} {entry : String × α}
    {entries : List (String × α)} (h : entry ∈ (m.insertAll entries).entries) :
    entry ∈ m.entries ∨ entry ∈ entries := by
  induction entries generalizing m with
  | nil => exact .inl h
  | cons first rest ih =>
      rw [OrderedMap.insertAll_cons] at h
      rcases ih h with hput | hrest
      · rcases OrderedMap.mem_put hput with heq | hold
        · exact .inr (heq ▸ List.mem_cons_self)
        · exact .inl hold
      · exact .inr (List.mem_cons_of_mem _ hrest)

/-- The entries of a table are among those that it was made of. -/
theorem OrderedMap.mem_ofList {α : Type} {entry : String × α} {entries : List (String × α)}
    (h : entry ∈ (OrderedMap.ofList entries).entries) : entry ∈ entries := by
  rcases OrderedMap.mem_insertAll h with habsurd | hmem
  · cases habsurd
  · exact hmem

/-! ## Schemas -/

/-- What is read of a value is tidy. -/
def Reading.Value.ReadsTidy (value : Value) : Prop :=
  ∀ schema, readSchema value = some schema → schema.Tidy

theorem readSchemas_tidy {values : List Value} {schemas : List Schema}
    (hvalues : ∀ value ∈ values, value.ReadsTidy) (h : readSchemas values = some schemas) :
    ∀ schema ∈ schemas, schema.Tidy := by
  induction values generalizing schemas with
  | nil =>
      rw [readSchemas] at h
      cases h
      exact fun _ hmem => by cases hmem
  | cons value rest ih =>
      rw [readSchemas] at h
      obtain ⟨schema, hschema, h⟩ := Option.bind_eq_some_iff.1 h
      obtain ⟨others, hothers, h⟩ := Option.bind_eq_some_iff.1 h
      cases h
      intro found hmem
      rcases List.mem_cons.1 hmem with rfl | htail
      · exact hvalues value List.mem_cons_self _ hschema
      · exact ih (fun other hother => hvalues other (List.mem_cons_of_mem _ hother)) hothers found
          htail

theorem readSchemaEntries_tidy {entries : List (Value × Value)} {named : List (String × Schema)}
    (hentries : ∀ entry ∈ entries, entry.2.ReadsTidy) (h : readSchemaEntries entries = some named) :
    ∀ entry ∈ named, entry.2.Tidy := by
  induction entries generalizing named with
  | nil =>
      rw [readSchemaEntries] at h
      cases h
      exact fun _ hmem => by cases hmem
  | cons entry rest ih =>
      rw [readSchemaEntries] at h
      obtain ⟨name, _, h⟩ := Option.bind_eq_some_iff.1 h
      obtain ⟨schema, hschema, h⟩ := Option.bind_eq_some_iff.1 h
      obtain ⟨others, hothers, h⟩ := Option.bind_eq_some_iff.1 h
      cases h
      intro found hmem
      rcases List.mem_cons.1 hmem with rfl | htail
      · exact hentries entry List.mem_cons_self _ hschema
      · exact ih (fun other hother => hentries other (List.mem_cons_of_mem _ hother)) hothers found
          htail

section Fields

variable {value : Value} {place : Nat}
  (hsmaller : ∀ part : Value, sizeOf part < sizeOf value → part.ReadsTidy)

include hsmaller

theorem readSchemaField_tidy {schema : Schema}
    (h : readSchemaField value place = some (some schema)) : schema.Tidy := by
  rw [readSchemaField] at h
  split at h
  · cases h
  · rename_i field hfield
    obtain ⟨found, hfound, heq⟩ := Option.map_eq_some_iff.1 h
    cases heq
    exact hsmaller field (Value.sizeOf_field?_lt hfield) _ hfound

theorem readSchemaList_tidy {members : List Schema}
    (h : readSchemaList value place = some (some members)) : ∀ member ∈ members, member.Tidy := by
  rw [readSchemaList] at h
  split at h
  · cases h
  · rename_i items hfield
    obtain ⟨found, hfound, heq⟩ := Option.map_eq_some_iff.1 h
    cases heq
    refine readSchemas_tidy (fun item hmem => hsmaller item ?_) hfound
    have hlist := Value.sizeOf_field?_lt hfield
    have hitem := List.sizeOf_lt_of_mem hmem
    rw [Value.list.sizeOf_spec] at hlist
    omega
  · cases h

theorem readSchemaTable_tidy {entries : List (String × Schema)}
    (h : readSchemaTable value place = some (some entries)) :
    (entries.map Prod.fst).Nodup ∧ ∀ entry ∈ entries, entry.2.Tidy := by
  rw [readSchemaTable] at h
  split at h
  · cases h
  · rename_i fields hfield
    obtain ⟨named, hnamed, heq⟩ := Option.map_eq_some_iff.1 h
    cases heq
    refine ⟨(OrderedMap.ofList named).nodup, fun entry hmem => ?_⟩
    refine readSchemaEntries_tidy (fun field hfieldMem => hsmaller field.2 ?_) hnamed entry
      (OrderedMap.mem_ofList hmem)
    have hrecord := Value.sizeOf_field?_lt hfield
    have hentry := List.sizeOf_lt_of_mem hfieldMem
    have hvalue : sizeOf field.2 < sizeOf field := by
      obtain ⟨name, own⟩ := field
      show sizeOf own < sizeOf (name, own)
      rw [Prod.mk.sizeOf_spec]
      omega
    rw [Value.record.sizeOf_spec] at hrecord
    omega
  · cases h

theorem readsTidy_of_smaller : value.ReadsTidy := by
  intro schema h
  rw [readSchema.eq_def] at h
  split at h
  · cases h
    exact .boolean
  · split at h
    · obtain ⟨type, _, h⟩ := Option.bind_eq_some_iff.1 h
      obtain ⟨reference, _, h⟩ := Option.bind_eq_some_iff.1 h
      obtain ⟨properties, hproperties, h⟩ := Option.bind_eq_some_iff.1 h
      obtain ⟨items, hitems, h⟩ := Option.bind_eq_some_iff.1 h
      obtain ⟨anyOf, hanyOf, h⟩ := Option.bind_eq_some_iff.1 h
      obtain ⟨additionalProperties, hadditional, h⟩ := Option.bind_eq_some_iff.1 h
      obtain ⟨format, _, h⟩ := Option.bind_eq_some_iff.1 h
      obtain ⟨nullable, _, h⟩ := Option.bind_eq_some_iff.1 h
      cases h
      constructor
      · rintro entries rfl
        exact (readSchemaTable_tidy hsmaller hproperties).1
      · rintro entries rfl
        exact (readSchemaTable_tidy hsmaller hproperties).2
      · rintro schema rfl
        exact readSchemaField_tidy hsmaller hitems
      · rintro members rfl
        exact readSchemaList_tidy hsmaller hanyOf
      · rintro schema rfl
        exact readSchemaField_tidy hsmaller hadditional
    · cases h

end Fields

/-- Every schema that is read is tidy. -/
theorem readSchema_tidy (value : Value) : value.ReadsTidy :=
  readsTidy_of_smaller fun part _hlt => readSchema_tidy part
termination_by sizeOf value
decreasing_by exact _hlt

/-! ## Documents -/

/-- What can be said of the results of readings. A reading that fails has no result. -/
structure Reading.Ensures (m : Type → Type) [Monad m] [MonadExcept Unit m] where
  holds : {α : Type} → (α → Prop) → m α → Prop
  any : ∀ {α : Type} (x : m α), holds (fun _ => True) x
  pure : ∀ {α : Type} {good : α → Prop} {a : α}, good a → holds good (pure a)
  throw : ∀ {α : Type} {good : α → Prop}, holds good (throw () : m α)
  map : ∀ {α β : Type} {good : α → Prop} {after : β → Prop} {x : m α} {f : α → β},
    holds good x → (∀ a, good a → after (f a)) → holds after (f <$> x)
  bind : ∀ {α β : Type} {good : α → Prop} {after : β → Prop} {x : m α} {f : α → m β},
    holds good x → (∀ a, good a → holds after (f a)) → holds after (x >>= f)

section Documents

variable {m : Type → Type} [Monad m] [MonadExcept Unit m] (en : Ensures m) {ν α : Type}
  (e : Encoding m ν)

/-- Every entry of a table is good. -/
def OrderedMap.All {α : Type} (good : α → Prop) (table : OrderedMap α) : Prop :=
  ∀ entry ∈ table.entries, good entry.2

/-- A result that is there is good. -/
def Reading.IfThere {α : Type} (good : α → Prop) (result : Option α) : Prop :=
  ∀ a, result = some a → good a

theorem optional_ensures {good : α → Prop} {read : ν → m α}
    (h : ∀ value, en.holds good (read value)) (field : Option ν) :
    en.holds (IfThere good) (e.optional read field) := by
  cases field with
  | none => exact en.pure fun _ habsurd => by cases habsurd
  | some field =>
      refine en.bind (en.any _) fun present _ => ?_
      cases present with
      | none => exact en.pure fun _ habsurd => by cases habsurd
      | some value =>
          refine en.map (h value) fun a hgood found heq => ?_
          cases heq
          exact hgood

theorem entries_ensures {good : α → Prop} {read : ν → m α}
    (h : ∀ value, en.holds good (read value)) (members : List (String × ν)) :
    en.holds (fun entries => ∀ entry ∈ entries, good entry.2) (Encoding.entries read members) := by
  induction members with
  | nil => exact en.pure fun _ hmem => by cases hmem
  | cons member rest ih =>
      refine en.bind (h member.2) fun own hown => en.bind ih fun others hothers => en.pure ?_
      intro entry hmem
      rcases List.mem_cons.1 hmem with rfl | htail
      · exact hown
      · exact hothers entry htail

theorem orderedMap_ensures {good : α → Prop} {read : ν → m α}
    (h : ∀ value, en.holds good (read value)) (value : ν) :
    en.holds (OrderedMap.All good) (e.orderedMap read value) := by
  refine en.bind (en.any _) fun members _ => en.bind (entries_ensures en h members) ?_
  intro entries hentries
  exact en.pure fun entry hmem => hentries entry (OrderedMap.mem_ofList hmem)

theorem tableOrEmpty_ensures {good : α → Prop} {read : ν → m α}
    (h : ∀ value, en.holds good (read value)) (field : Option ν) :
    en.holds (OrderedMap.All good) (e.tableOrEmpty read field) := by
  cases field with
  | none => exact en.pure fun _ hmem => by cases hmem
  | some value => exact orderedMap_ensures en e h value

/-- The schema of a body is tidy. -/
def OpenApi.MediaType.Tidy (body : MediaType) : Prop :=
  IfThere Schema.Tidy body.schema

/-- The schemas of a response are tidy. -/
def OpenApi.Response.Tidy (response : Response) : Prop :=
  IfThere (OrderedMap.All MediaType.Tidy) response.content

/-- The schemas of an operation are tidy. -/
def OpenApi.Operation.Tidy (operation : Operation) : Prop :=
  operation.responses.All Response.Tidy

/-- The schemas of the operations on a path are tidy. -/
def OpenApi.PathItem.Tidy (item : PathItem) : Prop :=
  ∀ method, IfThere Operation.Tidy (item.operation? method)

/-- The shared schemas are tidy. -/
def OpenApi.Components.Tidy (components : Components) : Prop :=
  IfThere (OrderedMap.All Schema.Tidy) components.schemas

theorem schema_ensures (value : ν) : en.holds Schema.Tidy (e.schema value) := by
  refine en.bind (en.any _) fun meaning _ => ?_
  split
  · rename_i schema hschema
    exact en.pure (readSchema_tidy meaning schema hschema)
  · exact en.throw

theorem mediaType_ensures (value : ν) : en.holds MediaType.Tidy (e.mediaType value) := by
  refine en.bind (en.any _) fun field _ => ?_
  refine en.bind (optional_ensures en e (schema_ensures en e) _) ?_
  exact fun schema hschema => en.pure hschema

theorem response_ensures (value : ν) : en.holds Response.Tidy (e.response value) := by
  refine en.bind (en.any _) fun field _ => en.bind (en.any _) fun reference _ => ?_
  refine en.bind (optional_ensures en e ?_ _) fun content hcontent => en.pure hcontent
  exact orderedMap_ensures en e (mediaType_ensures en e)

theorem operation_ensures (value : ν) : en.holds Operation.Tidy (e.operation value) := by
  refine en.bind (en.any _) fun field _ => en.bind (en.any _) fun operationId _ => ?_
  refine en.bind (tableOrEmpty_ensures en e (response_ensures en e) _) ?_
  exact fun responses hresponses => en.pure hresponses

theorem pathItem_ensures (value : ν) : en.holds PathItem.Tidy (e.pathItem value) := by
  have hoperation := optional_ensures en e (operation_ensures en e)
  refine en.bind (en.any _) fun field _ => ?_
  refine en.bind (hoperation _) fun get hget => en.bind (hoperation _) fun post hpost => ?_
  refine en.bind (hoperation _) fun put hput => en.bind (hoperation _) fun patch hpatch => ?_
  refine en.bind (hoperation _) fun delete hdelete => en.pure fun method => ?_
  cases method with
  | get => exact hget
  | post => exact hpost
  | put => exact hput
  | patch => exact hpatch
  | delete => exact hdelete

theorem components_ensures (value : ν) : en.holds Components.Tidy (e.components value) := by
  refine en.bind (en.any _) fun field _ => ?_
  refine en.bind (optional_ensures en e ?_ _) fun schemas hschemas => en.pure hschemas
  exact orderedMap_ensures en e (schema_ensures en e)

theorem document_ensures (value : ν) : en.holds (fun doc : Document =>
    doc.paths.All PathItem.Tidy ∧ IfThere Components.Tidy doc.components) (e.document value) := by
  refine en.bind (en.any _) fun field _ => ?_
  refine en.bind (tableOrEmpty_ensures en e (pathItem_ensures en e) _) fun paths hpaths => ?_
  refine en.bind (optional_ensures en e (components_ensures en e) _) ?_
  exact fun components hcomponents => en.pure ⟨hpaths, hcomponents⟩

end Documents

/-- A reading that may fail. -/
def Reading.Ensures.option : Ensures Option where
  holds good x := ∀ a, x = some a → good a
  any _ _ _ := trivial
  pure hgood _ heq := Option.some.inj heq ▸ hgood
  throw _ heq := by cases heq
  map h hnext b heq := by
    obtain ⟨a, ha, rfl⟩ := Option.map_eq_some_iff.1 heq
    exact hnext a (h a ha)
  bind h hnext b heq := by
    obtain ⟨a, ha, hb⟩ := Option.bind_eq_some_iff.1 heq
    exact hnext a (h a ha) b hb

/-- A reading that counts how often it has followed an alias. -/
def Reading.Ensures.counted : Ensures Yaml.Counted where
  holds good x := ∀ count a after, x.run count = some (a, after) → good a
  any _ _ _ _ _ := trivial
  pure hgood _ _ _ heq := by
    cases heq
    exact hgood
  throw _ _ _ heq := by cases heq
  map h hnext count b after heq := by
    obtain ⟨⟨a, middle⟩, ha, hb⟩ := Option.bind_eq_some_iff.1 heq
    cases hb
    exact hnext a (h count a _ ha)
  bind h hnext count b after heq := by
    obtain ⟨⟨a, middle⟩, ha, hb⟩ := Option.bind_eq_some_iff.1 heq
    exact hnext a (h count a middle ha) middle b after hb

/-- The schema of a success response is the schema of one of its bodies. -/
theorem tidy_of_successSchemaAmong {operation : Operation} (h : operation.Tidy)
    {statuses : List String} {schema : Schema}
    (hschema : successSchemaAmong operation statuses = .ok (some schema)) : schema.Tidy := by
  induction statuses with
  | nil => cases hschema
  | cons status rest ih =>
      rw [successSchemaAmong] at hschema
      split at hschema
      · exact ih hschema
      · rename_i response hresponse
        split at hschema
        · cases hschema
        · split at hschema
          · rename_i found hfound
            cases hschema
            obtain ⟨entry, hmem, hentry⟩ := List.exists_of_findSome?_eq_some hfound
            split at hentry
            · rcases hcontent : response.content with _ | content
              · rw [hcontent] at hmem
                cases hmem
              · rw [hcontent] at hmem
                have hbodies := h _ (OrderedMap.mem_entries_iff.2 hresponse) content hcontent
                exact hbodies entry hmem schema hentry
            · cases hentry
          · exact ih hschema

theorem tidy_of_parts {doc : Document} (hpaths : doc.paths.All PathItem.Tidy)
    (hcomponents : IfThere Components.Tidy doc.components) : doc.Tidy := by
  constructor
  · intro name schema hschema
    rw [Document.schema?, Document.schemas] at hschema
    rcases hfound : doc.components.bind Components.schemas with _ | schemas
    · rw [hfound] at hschema
      cases hschema
    · rw [hfound] at hschema
      obtain ⟨components, hthere, hschemas⟩ := Option.bind_eq_some_iff.1 hfound
      exact hcomponents components hthere schemas hschemas _ (OrderedMap.mem_entries_iff.2 hschema)
  · intro endpoint hmem schema hschema
    obtain ⟨⟨path, item⟩, hitem, hmethods⟩ := List.mem_flatMap.1 hmem
    obtain ⟨method, _, hoperation⟩ := List.mem_filterMap.1 hmethods
    obtain ⟨operation, hfound, rfl⟩ := Option.map_eq_some_iff.1 hoperation
    have htidy := hpaths _ (List.mem_mergeSort.1 hitem) method operation hfound
    exact tidy_of_successSchemaAmong htidy hschema

/-- Every document that is read is tidy. -/
theorem tidy_of_parse {format : DocumentFormat} {text : String} {doc : Document}
    (h : Document.parse format text = .ok doc) : doc.Tidy := by
  unfold Document.parse at h
  split at h
  · rename_i found hread
    cases h
    cases format with
    | json =>
        obtain ⟨node, _, hdocument⟩ := Option.bind_eq_some_iff.1 hread
        obtain ⟨hpaths, hcomponents⟩ := document_ensures .option Json.encoding _ _ hdocument
        exact tidy_of_parts hpaths hcomponents
    | yaml =>
        obtain ⟨root, _, hread⟩ := Option.bind_eq_some_iff.1 hread
        obtain ⟨⟨_, after⟩, hdocument, heq⟩ := Option.bind_eq_some_iff.1 hread
        cases heq
        obtain ⟨hpaths, hcomponents⟩ := document_ensures .counted _ _ _ _ _ hdocument
        exact tidy_of_parts hpaths hcomponents
  · cases h

end DateReviver
