import Mathlib.Data.List.Nodup
import DateReviver.Proofs.Related
import DateReviver.Reading.Json

/-!
# Schemas in JSON

A schema is not read where it stands: all of it is first taken as a value, and the schema is read
of that value. What comes of it is the same as if the keywords were read where they stand, like
the fields of any other record, provided only that all of the schema has a meaning.
-/

namespace DateReviver.Reading

open DateReviver.OpenApi
open DateReviver.Json (Node)

theorem keywordNames_nodup : keywordNames.Nodup := by
  decide

/-! ## Values with named entries -/

namespace Value

variable {names : List String}

theorem findIdx?_eq_some_iff (hnodup : names.Nodup) {name : String} {place : Nat} :
    names.findIdx? (· == name) = some place ↔ names[place]? = some name := by
  rw [List.findIdx?_eq_some_iff_getElem]
  constructor
  · rintro ⟨hlt, hname, _⟩
    rw [List.getElem?_eq_getElem hlt, beq_iff_eq.1 hname]
  · intro h
    obtain ⟨hlt, hname⟩ := List.getElem?_eq_some_iff.1 h
    refine ⟨hlt, beq_iff_eq.2 hname, fun earlier hearlier hsame => ?_⟩
    have heq := hnodup.getElem_inj_iff.1 ((beq_iff_eq.1 hsame).trans hname.symm)
    omega

/-- The names that stand for a place stand for it once each. -/
theorem nodup_places_iff (hnodup : names.Nodup) (written : List String) :
    (written.filterMap fun name => names.findIdx? (· == name)).Nodup ↔
      (written.filter names.contains).Nodup := by
  induction written with
  | nil => simp
  | cons name rest ih =>
      by_cases hname : name ∈ names
      · obtain ⟨place, hplace⟩ := List.getElem?_of_mem hname
        have hfind := (findIdx?_eq_some_iff hnodup).2 hplace
        have hmem : place ∈ rest.filterMap (fun other => names.findIdx? (· == other)) ↔
            name ∈ rest := by
          rw [List.mem_filterMap]
          constructor
          · rintro ⟨other, hother, hfound⟩
            have hsame := (findIdx?_eq_some_iff hnodup).1 hfound
            rw [hplace] at hsame
            cases hsame
            exact hother
          · intro hrest
            exact ⟨name, hrest, hfind⟩
        simp only [List.filterMap_cons, hfind]
        rw [List.filter_cons_of_pos (by simpa using hname), List.nodup_cons, List.nodup_cons, ih,
          hmem, List.mem_filter]
        simp [hname]
      · have hfind : names.findIdx? (· == name) = none := by
          rw [List.findIdx?_eq_none_iff]
          intro other hother
          rw [beq_eq_false_iff_ne]
          rintro rfl
          exact hname hother
        simp only [List.filterMap_cons, hfind]
        rw [List.filter_cons_of_neg (by simpa using hname), ih]

end Value

namespace Json

variable {names : List String} {named : List (String × Place)} {entries : List (Value × Value)}

theorem members?_cons (room : Nat) (name : String) (node : Node)
    (rest : List (Option String × Node)) :
    members? room ((some name, node) :: rest) =
      (members? room rest).map fun others => (name, ⟨room, node⟩) :: others := by
  simp only [members?, List.mapM_cons, Option.map_some, Option.bind_eq_bind, Option.bind_some]
  rw [Option.map_eq_bind]
  rfl

/-- What an entry of a record means. -/
def EntryMeans (member : String × Place) (entry : Value × Value) : Prop :=
  entry.1 = .text member.1 ∧ encoding.value member.2 = some entry.2

theorem membersWithin_eq_some_iff {room : Nat} {members : List (Option String × Node)} :
    membersWithin room members = some entries ↔
      ∃ named, members? room members = some named ∧ List.Forall₂ EntryMeans named entries := by
  induction members generalizing entries with
  | nil => simp [membersWithin, members?, eq_comm]
  | cons member rest ih =>
      obtain ⟨name, node⟩ := member
      cases name with
      | none => simp [membersWithin, members?]
      | some name =>
          have hcons : membersWithin room ((some name, node) :: rest) =
              (valueWithin room node).bind fun value =>
                (membersWithin room rest).map fun others => (.text name, value) :: others := by
            simp only [membersWithin, Option.bind_eq_bind, Option.bind_some]
            cases membersWithin room rest <;> rfl
          rw [hcons, members?_cons]
          constructor
          · intro h
            obtain ⟨value, hvalue, h⟩ := Option.bind_eq_some_iff.1 h
            obtain ⟨others, hothers, rfl⟩ := Option.map_eq_some_iff.1 h
            obtain ⟨named, hnamed, hmeans⟩ := ih.1 hothers
            have hown : EntryMeans (name, ⟨room, node⟩) (.text name, value) := ⟨rfl, hvalue⟩
            exact ⟨_, by rw [hnamed]; rfl, .cons hown hmeans⟩
          · rintro ⟨named, hnamed, hmeans⟩
            obtain ⟨others, hothers, rfl⟩ := Option.map_eq_some_iff.1 hnamed
            obtain ⟨entry, means, hentry, hrest, rfl⟩ := List.forall₂_cons_left_iff.1 hmeans
            obtain ⟨key, value⟩ := entry
            obtain ⟨rfl, hvalue⟩ := hentry
            have hown : valueWithin room node = some value := hvalue
            rw [hown, ih.2 ⟨others, hothers, hrest⟩]
            rfl

theorem fieldPlaces_of_entryMeans (h : List.Forall₂ EntryMeans named entries) :
    (entries.mapM fun entry => entry.1.fieldPlace? names) =
      some (named.map fun member => names.findIdx? (· == member.1)) := by
  induction h with
  | nil => rfl
  | @cons member entry named entries hentry _ ih =>
      obtain ⟨key, value⟩ := entry
      obtain ⟨rfl, _⟩ := hentry
      rw [List.mapM_cons, ih]
      rfl

/-- A record gives fields if none of those asked for is given twice. -/
theorem givesFields_of_entryMeans (hnodup : names.Nodup)
    (h : List.Forall₂ EntryMeans named entries) :
    (Value.record entries).givesFields names =
      decide ((named.map Prod.fst).filter names.contains).Nodup := by
  have hplaces : (named.map fun member => names.findIdx? (· == member.1)).filterMap id =
      (named.map Prod.fst).filterMap fun name => names.findIdx? (· == name) := by
    rw [List.filterMap_map, List.filterMap_map]
    rfl
  simp only [Value.givesFields, fieldPlaces_of_entryMeans h, hplaces]
  exact decide_eq_decide.2 (Value.nodup_places_iff hnodup _)

theorem find?_of_entryMeans (hnodup : names.Nodup) {name : String} {place : Nat}
    (hname : names[place]? = some name) (h : List.Forall₂ EntryMeans named entries) :
    (entries.find? fun entry => entry.1.fieldPlace? names == some (some place)).map Prod.snd =
      (named.lookup name).bind encoding.value := by
  induction h with
  | nil => rfl
  | @cons member entry named entries hentry _ ih =>
      obtain ⟨key, value⟩ := entry
      obtain ⟨own, node⟩ := member
      obtain ⟨rfl, hvalue⟩ := hentry
      by_cases hown : own = name
      · subst hown
        have hplace : (Value.text own).fieldPlace? names = some (some place) :=
          congrArg some ((Value.findIdx?_eq_some_iff hnodup).2 hname)
        simp [hplace, hvalue]
      · have hplace : (Value.text own).fieldPlace? names ≠ some (some place) := by
          intro hsame
          have hother := (Value.findIdx?_eq_some_iff hnodup).1 (Option.some.inj hsame)
          rw [hname] at hother
          exact hown (Option.some.inj hother).symm
        have hmiss : (name == own) = false := beq_eq_false_iff_ne.2 (Ne.symm hown)
        simp only [List.find?_cons, beq_eq_false_iff_ne.2 hplace, List.lookup_cons, hmiss]
        exact ih

/-! ## Fields as values -/

/-- A field that is written and not null. -/
def given? (field : Option Place) : Option Place :=
  field.filter fun own =>
    match own.node with
    | .null => false
    | _ => true

theorem given?_some_of_null {own : Place} (h : own.node = .null) : given? (some own) = none := by
  simp [given?, h, Option.filter_some]

theorem given?_some_of_ne {own : Place} (h : own.node ≠ .null) :
    given? (some own) = some own := by
  obtain ⟨room, node⟩ := own
  cases node <;> first | exact absurd rfl h | rfl

theorem value_eq_null_iff {place : Place} :
    encoding.value place = some .null ↔ place.node = .null := by
  obtain ⟨room, node⟩ := place
  show valueWithin room node = some .null ↔ node = .null
  cases node <;> simp [valueWithin]

/-- A value is null where null is written. -/
theorem filter_bind_value (field : Option Place) :
    ((field.bind encoding.value).filter fun value =>
      match value with
      | .null => false
      | _ => true) = (given? field).bind encoding.value := by
  cases field with
  | none => rfl
  | some own =>
      rw [Option.bind_some]
      by_cases hnull : own.node = .null
      · rw [given?_some_of_null hnull, value_eq_null_iff.2 hnull]
        rfl
      · rw [given?_some_of_ne hnull, Option.bind_some]
        cases hvalue : encoding.value own with
        | none => rfl
        | some value =>
            have hne : value ≠ .null := by
              rintro rfl
              exact hnull (value_eq_null_iff.1 hvalue)
            cases value <;> first | exact absurd rfl hne | rfl

/-- The fields of a value are those that stand at certain places, and all of them have a
meaning. -/
structure Gives (value : Value) (field : String → Option Place) : Prop where
  field? : ∀ {name : String} {place : Nat}, keywordNames[place]? = some name →
    value.field? keywordNames place = (given? (field name)).bind encoding.value
  meaning : ∀ {name : String} {own : Place}, name ∈ keywordNames → field name = some own →
    (encoding.value own).isSome

theorem mem_of_namedFields {field : String → Option Place} {name : String} {own : Place}
    (hfields : namedFields names named = some field) (h : field name = some own) :
    (name, own) ∈ named := by
  unfold namedFields at hfields
  split at hfields
  · cases hfields
    obtain ⟨before, after, rfl, _⟩ := List.lookup_eq_some_iff.1 h
    simp
  · cases hfields

theorem gives_of_entryMeans {field : String → Option Place}
    (hmeans : List.Forall₂ EntryMeans named entries)
    (hfields : namedFields keywordNames named = some field) : Gives (.record entries) field := by
  constructor
  · intro name place hname
    unfold namedFields at hfields
    split at hfields
    · cases hfields
      rw [← filter_bind_value, ← find?_of_entryMeans keywordNames_nodup hname hmeans]
      rfl
    · cases hfields
  · intro name own _ hown
    obtain ⟨entry, _, hentry⟩ := exists_of_mem_left hmeans (mem_of_namedFields hfields hown)
    exact Option.isSome_iff_exists.2 ⟨_, hentry.2⟩

theorem lookup_zip (hnodup : names.Nodup) {name : String} {place : Nat}
    (hname : names[place]? = some name) (items : List Place) :
    (names.zip items).lookup name = items[place]? := by
  induction names generalizing place items with
  | nil => cases hname
  | cons first rest ih =>
      cases items with
      | nil => simp
      | cons item items =>
          cases place with
          | zero =>
              cases hname
              simp
          | succ place =>
              rw [List.getElem?_cons_succ] at hname
              have hne : (name == first) = false := by
                rw [beq_eq_false_iff_ne]
                rintro rfl
                exact (List.nodup_cons.1 hnodup).1 (List.mem_of_getElem? hname)
              rw [List.zip_cons_cons, List.lookup_cons, hne, List.getElem?_cons_succ]
              exact ih (List.nodup_cons.1 hnodup).2 hname items

theorem orderedFields_eq_some_iff {least : Nat} {items : List Place}
    {field : String → Option Place} : orderedFields names least items = some field ↔
      (least ≤ items.length ∧ items.length ≤ names.length) ∧
        (fun name => (names.zip items).lookup name) = field := by
  unfold orderedFields
  split <;> simp [*]

/-- Of a record that is given in order, a field is the item at its place. -/
theorem orderedFields_getElem? (hnodup : names.Nodup) {least : Nat} {items : List Place}
    {field : String → Option Place} (hfields : orderedFields names least items = some field)
    {name : String} {place : Nat} (hname : names[place]? = some name) :
    field name = items[place]? := by
  obtain ⟨_, rfl⟩ := orderedFields_eq_some_iff.1 hfields
  exact lookup_zip hnodup hname items

theorem valuesWithin_eq (room : Nat) (items : List Node) :
    valuesWithin room items = (items.map fun node => Place.mk room node).mapM encoding.value := by
  induction items with
  | nil => rfl
  | cons node rest ih =>
      rw [valuesWithin, ih, List.map_cons, List.mapM_cons]
      rfl

theorem gives_of_items {items : List Place} {values : List Value} {field : String → Option Place}
    (hvalues : items.mapM encoding.value = some values)
    (hfields : orderedFields keywordNames keywordNames.length items = some field) :
    Gives (.list values) field := by
  have hmeans := mapM_eq_some_iff.1 hvalues
  constructor
  · intro name place hname
    rw [← filter_bind_value, orderedFields_getElem? keywordNames_nodup hfields hname,
      ← getElem?_of_forall₂ hmeans]
    rfl
  · intro name own hname hown
    obtain ⟨place, hplace⟩ := List.getElem?_of_mem hname
    rw [orderedFields_getElem? keywordNames_nodup hfields hplace] at hown
    obtain ⟨value, _, hvalue⟩ := exists_of_mem_left hmeans (List.mem_of_getElem? hown)
    exact Option.isSome_iff_exists.2 ⟨value, hvalue⟩

/-! ## Keywords where they stand -/

/-- Read all the items of a list. -/
def readItems {α : Type} (read : Place → Option α) (place : Place) : Option (List α) :=
  match place.room, place.node with
  | room + 1, .list items => (items.map fun node => Place.mk room node).mapM read
  | _, _ => none

def schemaTable (place : Place) : Option (List (String × Schema)) :=
  (encoding.orderedMap encoding.schema place).map OrderedMap.entries

def typeKeyword (place : Place) : Option TypeKeyword :=
  (encoding.value place).bind readType

def flag (place : Place) : Option Bool :=
  (encoding.value place).bind readBool

/-- The keywords of a schema, read where they stand. -/
def keywords (field : String → Option Place) : Option Schema := do
  let type ← encoding.optional typeKeyword (field "type")
  let reference ← encoding.optional encoding.text (field "$ref")
  let properties ← encoding.optional schemaTable (field "properties")
  let items ← encoding.optional encoding.schema (field "items")
  let anyOf ← encoding.optional (readItems encoding.schema) (field "anyOf")
  let additionalProperties ← encoding.optional encoding.schema (field "additionalProperties")
  let format ← encoding.optional encoding.text (field "format")
  let nullable ← encoding.optional flag (field "nullable")
  return .object
    { type, reference, properties, items, anyOf, additionalProperties, format, nullable }

theorem schema_eq_bind (place : Place) :
    encoding.schema place = (encoding.value place).bind readSchema := by
  unfold Encoding.schema
  cases encoding.value place with
  | none => rfl
  | some value =>
      rw [Option.bind_some, Option.bind_eq_bind, Option.bind_some]
      cases readSchema value <;> rfl

theorem optional_eq {α : Type} (read : Place → Option α) (field : Option Place) :
    encoding.optional read field =
      match given? field with
      | none => some none
      | some own => (read own).map some := by
  cases field with
  | none => rfl
  | some own =>
      obtain ⟨room, node⟩ := own
      cases node <;> rfl

theorem readOptional_of_gives {α : Type} {value : Value} {field : String → Option Place}
    (h : Gives value field) {name : String} {place : Nat} (hname : keywordNames[place]? = some name)
    (read : Value → Option α) : readOptional read (value.field? keywordNames place) =
      encoding.optional (fun own => (encoding.value own).bind read) (field name) := by
  rw [h.field? hname, optional_eq]
  cases hgiven : given? (field name) with
  | none => rfl
  | some own =>
      have hfield : field name = some own := (Option.filter_eq_some_iff.1 hgiven).1
      obtain ⟨meant, hmeant⟩ :=
        Option.isSome_iff_exists.1 (h.meaning (List.mem_of_getElem? hname) hfield)
      simp only [Option.bind_some, hmeant, readOptional]

/-! ## Parts of a schema -/

/-- The list of schemas in a value. -/
def readSchemaItems : Value → Option (List Schema)
  | .list items => readSchemas items
  | _ => none

def readProperties : Value → Option (List (String × Schema))
  | .record entries => (readSchemaEntries entries).map fun named => (OrderedMap.ofList named).entries
  | _ => none

theorem readSchemaField_eq (value : Value) (place : Nat) :
    readSchemaField value place = readOptional readSchema (value.field? keywordNames place) := by
  rw [readSchemaField]
  split <;> rename_i h <;> rw [h] <;> rfl

theorem readSchemaList_eq (value : Value) (place : Nat) :
    readSchemaList value place = readOptional readSchemaItems (value.field? keywordNames place) := by
  rw [readSchemaList]
  split
  · rename_i h
    rw [h]
    rfl
  · rename_i h
    rw [h]
    rfl
  · rename_i own hother h
    rw [h]
    cases own <;> first | exact absurd rfl (hother _) | rfl

theorem readSchemaTable_eq (value : Value) (place : Nat) :
    readSchemaTable value place = readOptional readProperties (value.field? keywordNames place) := by
  rw [readSchemaTable]
  split
  · rename_i h
    rw [h]
    rfl
  · rename_i entries h
    rw [h]
    show _ = (readProperties (.record entries)).map some
    rw [readProperties, Option.map_map]
    rfl
  · rename_i own hother h
    rw [h]
    cases own <;> first | exact absurd rfl (hother _) | rfl

theorem bind_readSchemas (items : List Place) :
    (items.mapM encoding.value).bind readSchemas = items.mapM encoding.schema := by
  induction items with
  | nil => simp [readSchemas]
  | cons item rest ih =>
      simp only [List.mapM_cons, ← ih, schema_eq_bind]
      cases encoding.value item with
      | none => rfl
      | some value =>
          cases rest.mapM encoding.value with
          | none => cases hread : readSchema value <;> simp [hread]
          | some values => simp [readSchemas]

theorem bind_readSchemaItems (own : Place) :
    (encoding.value own).bind readSchemaItems = readItems encoding.schema own := by
  obtain ⟨room, node⟩ := own
  show (valueWithin room node).bind readSchemaItems = _
  cases node with
  | list items =>
      cases room with
      | zero => rfl
      | succ room =>
          have hread : readItems encoding.schema ⟨room + 1, .list items⟩ =
              ((items.map fun node => Place.mk room node).mapM encoding.value).bind readSchemas :=
            (bind_readSchemas _).symm
          rw [hread, ← valuesWithin_eq, valueWithin, if_neg (Nat.succ_ne_zero room),
            Nat.add_sub_cancel]
          cases valuesWithin room items <;> rfl
  | number n =>
      rw [valueWithin]
      split <;> cases room <;> rfl
  | text s => cases s <;> cases room <;> rfl
  | record members =>
      rw [valueWithin]
      split
      · cases room <;> rfl
      · cases membersWithin (room - 1) members <;> cases room <;> rfl
  | null => cases room <;> rfl
  | bool b => cases room <;> rfl

theorem entries_cons {α : Type} (read : Place → Option α) (member : String × Place)
    (rest : List (String × Place)) : Encoding.entries read (member :: rest) =
      (read member.2).bind fun own =>
        (Encoding.entries read rest).map fun others => (member.1, own) :: others := by
  rw [Encoding.entries, Option.bind_eq_bind]
  congr 1
  funext own
  cases Encoding.entries read rest <;> rfl

theorem readSchemaEntries_of_entryMeans (h : List.Forall₂ EntryMeans named entries) :
    readSchemaEntries entries = Encoding.entries encoding.schema named := by
  induction h with
  | nil => simp [readSchemaEntries, Encoding.entries]
  | @cons member entry named entries hentry _ ih =>
      obtain ⟨key, value⟩ := entry
      obtain ⟨rfl, hvalue⟩ := hentry
      rw [entries_cons, schema_eq_bind, hvalue, readSchemaEntries, ih]
      simp only [readText, Option.bind_eq_bind, Option.bind_some]
      congr 1
      funext own
      cases Encoding.entries encoding.schema named <;> rfl

/-- Where every entry is a schema, every entry has a meaning. -/
theorem exists_meanings_of_entries {schemas : List (String × Schema)}
    (h : Encoding.entries encoding.schema named = some schemas) :
    ∃ entries, List.Forall₂ EntryMeans named entries := by
  induction named generalizing schemas with
  | nil => exact ⟨[], .nil⟩
  | cons member rest ih =>
      rw [entries_cons] at h
      obtain ⟨own, hown, h⟩ := Option.bind_eq_some_iff.1 h
      obtain ⟨others, hothers, _⟩ := Option.map_eq_some_iff.1 h
      obtain ⟨entries, hentries⟩ := ih hothers
      rw [schema_eq_bind] at hown
      obtain ⟨value, hvalue, _⟩ := Option.bind_eq_some_iff.1 hown
      exact ⟨(.text member.1, value) :: entries, .cons ⟨rfl, hvalue⟩ hentries⟩

theorem orderedMap_eq {α : Type} (read : Place → Option α) (own : Place) :
    encoding.orderedMap read own = (encoding.table own).bind fun named =>
      (Encoding.entries read named).map OrderedMap.ofList := by
  unfold Encoding.orderedMap
  rw [Option.bind_eq_bind]
  congr 1
  funext named
  cases Encoding.entries read named <;> rfl

theorem bind_readProperties (own : Place) :
    (encoding.value own).bind readProperties = schemaTable own := by
  rw [schemaTable, orderedMap_eq]
  obtain ⟨room, node⟩ := own
  show (valueWithin room node).bind readProperties = _
  cases node with
  | record members =>
      cases room with
      | zero => rfl
      | succ room =>
          rw [valueWithin, if_neg (Nat.succ_ne_zero room), Nat.add_sub_cancel]
          show _ = ((members? room members).bind _).map _
          cases hentries : membersWithin room members with
          | some entries =>
              obtain ⟨named, hnamed, hmeans⟩ := membersWithin_eq_some_iff.1 hentries
              rw [hnamed, Option.bind_some, ← readSchemaEntries_of_entryMeans hmeans, Option.map_map]
              rfl
          | none =>
              cases hnamed : members? room members with
              | none => rfl
              | some named =>
                  cases hschemas : Encoding.entries encoding.schema named with
                  | none => simp [hschemas]
                  | some schemas =>
                      obtain ⟨entries, hmeans⟩ := exists_meanings_of_entries hschemas
                      rw [membersWithin_eq_some_iff.2 ⟨named, hnamed, hmeans⟩] at hentries
                      cases hentries
  | number n =>
      rw [valueWithin]
      split <;> cases room <;> rfl
  | text s => cases s <;> cases room <;> rfl
  | list items =>
      rw [valueWithin]
      split
      · cases room <;> rfl
      · cases valuesWithin (room - 1) items <;> cases room <;> rfl
  | null => cases room <;> rfl
  | bool b => cases room <;> rfl

theorem bind_readText (own : Place) : (encoding.value own).bind readText = encoding.text own := by
  obtain ⟨room, node⟩ := own
  show (valueWithin room node).bind readText = _
  cases node with
  | text s => cases s <;> rfl
  | number n =>
      rw [valueWithin]
      split <;> rfl
  | list items =>
      rw [valueWithin]
      split
      · rfl
      · cases valuesWithin (room - 1) items <;> rfl
  | record members =>
      rw [valueWithin]
      split
      · rfl
      · cases membersWithin (room - 1) members <;> rfl
  | null => rfl
  | bool b => rfl

/-! ## Whole schemas -/

theorem keywords_of_gives {value : Value} {field : String → Option Place} (h : Gives value field)
    (hgives : value.givesFields keywordNames) : readSchema value = keywords field := by
  have hbool : ∀ b, value ≠ .bool b := by
    rintro b rfl
    cases hgives
  rw [readSchema.eq_def]
  split
  · exact absurd rfl (hbool _)
  · rw [if_pos hgives]
    simp only [readSchemaField_eq, readSchemaList_eq, readSchemaTable_eq]
    simp only [readOptional_of_gives h (show keywordNames[0]? = some "type" from rfl),
      readOptional_of_gives h (show keywordNames[1]? = some "$ref" from rfl),
      readOptional_of_gives h (show keywordNames[2]? = some "properties" from rfl),
      readOptional_of_gives h (show keywordNames[3]? = some "items" from rfl),
      readOptional_of_gives h (show keywordNames[4]? = some "anyOf" from rfl),
      readOptional_of_gives h (show keywordNames[5]? = some "additionalProperties" from rfl),
      readOptional_of_gives h (show keywordNames[6]? = some "format" from rfl),
      readOptional_of_gives h (show keywordNames[7]? = some "nullable" from rfl)]
    simp only [bind_readSchemaItems, bind_readProperties, bind_readText, ← schema_eq_bind]
    rfl

theorem givesFields_iff_namedFields (h : List.Forall₂ EntryMeans named entries) :
    (Value.record entries).givesFields keywordNames = (namedFields keywordNames named).isSome := by
  rw [givesFields_of_entryMeans keywordNames_nodup h, namedFields]
  split <;> simp_all

theorem readSchema_of_not_gives {value : Value} (hbool : ∀ b, value ≠ .bool b)
    (h : value.givesFields keywordNames = false) : readSchema value = none := by
  rw [readSchema.eq_def]
  split
  · exact absurd rfl (hbool _)
  · rw [h]
    rfl

theorem readSchema_record (h : List.Forall₂ EntryMeans named entries) :
    readSchema (.record entries) = (namedFields keywordNames named).bind keywords := by
  have hgives := givesFields_iff_namedFields h
  cases hfields : namedFields keywordNames named with
  | none =>
      rw [hfields] at hgives
      exact readSchema_of_not_gives (fun b hb => by cases hb) hgives
  | some field =>
      rw [hfields] at hgives
      exact keywords_of_gives (gives_of_entryMeans h hfields) hgives

theorem readSchema_list {items : List Place} {values : List Value}
    (h : items.mapM encoding.value = some values) : readSchema (.list values) =
      (orderedFields keywordNames keywordNames.length items).bind keywords := by
  have hlength : items.length = values.length := (mapM_eq_some_iff.1 h).length_eq
  cases hfields : orderedFields keywordNames keywordNames.length items with
  | none =>
      refine readSchema_of_not_gives (fun b hb => by cases hb) ?_
      unfold orderedFields at hfields
      split at hfields
      · cases hfields
      · rw [Value.givesFields, beq_eq_false_iff_ne]
        omega
  | some field =>
      refine keywords_of_gives (gives_of_items h hfields) ?_
      obtain ⟨hbounds, _⟩ := orderedFields_eq_some_iff.1 hfields
      rw [Value.givesFields, beq_iff_eq]
      omega

/-- A schema that is not a Boolean is read like a record of keywords, if all of it has a
meaning. -/
theorem schema_eq_keywords {place : Place} (hbool : ∀ b, place.node ≠ .bool b) :
    encoding.schema place = (encoding.value place).bind fun _ =>
      (encoding.fields keywordNames keywordNames.length place).bind keywords := by
  rw [schema_eq_bind]
  obtain ⟨room, node⟩ := place
  show (valueWithin room node).bind readSchema = (valueWithin room node).bind _
  cases node with
  | record members =>
      cases room with
      | zero => rfl
      | succ room =>
          rw [valueWithin, if_neg (Nat.succ_ne_zero room), Nat.add_sub_cancel]
          cases hentries : membersWithin room members with
          | none => rfl
          | some entries =>
              obtain ⟨named, hnamed, hmeans⟩ := membersWithin_eq_some_iff.1 hentries
              show readSchema (.record entries) = ((members? room members).bind _).bind keywords
              rw [hnamed, Option.bind_some, readSchema_record hmeans]
  | list items =>
      cases room with
      | zero => rfl
      | succ room =>
          rw [valueWithin, if_neg (Nat.succ_ne_zero room), Nat.add_sub_cancel, valuesWithin_eq]
          cases hvalues : (items.map fun node => Place.mk room node).mapM encoding.value with
          | none => rfl
          | some values => exact readSchema_list hvalues
  | bool b => exact absurd rfl (hbool b)
  | number n =>
      rw [valueWithin]
      split
      · cases room <;> exact readSchema_of_not_gives (fun b hb => by cases hb) rfl
      · rfl
  | text s =>
      cases s with
      | none => rfl
      | some s => cases room <;> exact readSchema_of_not_gives (fun b hb => by cases hb) rfl
  | null => cases room <;> exact readSchema_of_not_gives (fun b hb => by cases hb) rfl

end Json

end DateReviver.Reading
