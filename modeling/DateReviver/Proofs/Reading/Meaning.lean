import DateReviver.Proofs.Reading.Shape

/-!
# What a document means

The meaning of a tree, told by its shape. A record means what its fields mean, and nothing else
that stands in it. A table means the entries that are written in it, in their order; of a name
that is given twice it keeps the first place and the last value.
-/

namespace DateReviver.Reading.Json

open DateReviver.OpenApi
open DateReviver.Json (Node)

mutual

/-- What stands in a place means as a tree of some shape. -/
inductive Means : (shape : Shape) → Place → shape.Meaning → Prop
  | text {room : Nat} {value : String} : Means .text ⟨room, .text (some value)⟩ value
  | flag {room : Nat} {value : Bool} : Means .flag ⟨room, .bool value⟩ value
  | one {room : Nat} {name : String} :
      Means .type ⟨room, .text (some name)⟩ (TypeKeyword.one name)
  | several {room : Nat} {names : List String} :
      Means .type ⟨room + 1, .list (names.map fun name => .text (some name))⟩
        (TypeKeyword.several names)
  | boolean {room : Nat} {value : Bool} :
      Means (.record .schema) ⟨room, .bool value⟩ (Schema.boolean value)
  | record {form : Form} {place : Place} {written : String → Option Place}
      {parts : Parts form.fields}
      (hfields : encoding.fields form.names form.least place = some written)
      (hparts : PartsMean form.fields written parts) :
      Means (.record form) place (assemble form parts)
  | table {entry : Shape} {place : Place} {members : List (String × Place)}
      {written : List (String × entry.Meaning)} {map : OrderedMap entry.Meaning}
      (htable : encoding.table place = some members) (hentries : EntriesMean entry members written)
      (hkept : OrderedMap.Kept written map.entries) : Means (.table entry) place map
  | list {item : Shape} {room : Nat} {nodes : List Node} {items : List item.Meaning}
      (hitems : ItemsMean item (nodes.map (Place.mk room)) items) :
      Means (.list item) ⟨room + 1, .list nodes⟩ items

/-- What the fields of a record mean. -/
inductive PartsMean : (fields : List Field) → (String → Option Place) → Parts fields → Prop
  | nil {written : String → Option Place} : PartsMean [] written ()
  | absent {field : Field} {rest : List Field} {written : String → Option Place}
      {others : Parts rest} (hfield : field.given (written field.name) = none)
      (hrest : PartsMean rest written others) : PartsMean (field :: rest) written (none, others)
  | present {field : Field} {rest : List Field} {written : String → Option Place} {own : Place}
      {meaning : field.shape.Meaning} {others : Parts rest}
      (hfield : field.given (written field.name) = some own) (hown : Means field.shape own meaning)
      (hrest : PartsMean rest written others) :
      PartsMean (field :: rest) written (some meaning, others)

/-- What the entries of a table mean, as they are written. -/
inductive EntriesMean :
    (entry : Shape) → List (String × Place) → List (String × entry.Meaning) → Prop
  | nil {entry : Shape} : EntriesMean entry [] []
  | cons {entry : Shape} {name : String} {own : Place} {meaning : entry.Meaning}
      {members : List (String × Place)} {written : List (String × entry.Meaning)}
      (hown : Means entry own meaning) (hrest : EntriesMean entry members written) :
      EntriesMean entry ((name, own) :: members) ((name, meaning) :: written)

/-- What the items of a list mean. -/
inductive ItemsMean : (item : Shape) → List Place → List item.Meaning → Prop
  | nil {item : Shape} : ItemsMean item [] []
  | cons {item : Shape} {own : Place} {meaning : item.Meaning} {places : List Place}
      {meanings : List item.Meaning} (hown : Means item own meaning)
      (hrest : ItemsMean item places meanings) :
      ItemsMean item (own :: places) (meaning :: meanings)

end

/-! ## Smaller places -/

/-- What is read of a place is what stands in it means. -/
def Sound (own : Place) : Prop :=
  ∀ (shape : Shape) (meaning : shape.Meaning),
    shape.read own = some meaning → Means shape own meaning

theorem sizeOf_of_members? {room : Nat} {members : List (Option String × Node)}
    {named : List (String × Place)} (h : members? room members = some named)
    {member : String × Place} (hmem : member ∈ named) :
    sizeOf member.2.node < sizeOf (Node.record members) := by
  obtain ⟨name, own⟩ := member
  have hroom : own.room = room := room_of_members? h hmem
  have hwritten : (some name, own.node) ∈ members := by
    rw [← mem_members?_iff h, ← hroom]
    exact hmem
  have hsize := List.sizeOf_lt_of_mem hwritten
  rw [Prod.mk.sizeOf_spec] at hsize
  rw [Node.record.sizeOf_spec]
  show sizeOf own.node < _
  omega

theorem sizeOf_of_table {place : Place} {named : List (String × Place)}
    (h : encoding.table place = some named) {member : String × Place} (hmem : member ∈ named) :
    sizeOf member.2.node < sizeOf place.node := by
  obtain ⟨room, node⟩ := place
  cases room with
  | zero => cases h
  | succ room =>
      cases node with
      | record members => exact sizeOf_of_members? h hmem
      | _ => cases h

theorem sizeOf_of_fields {form : Form} {place own : Place} {written : String → Option Place}
    {field : Field} (h : encoding.fields form.names form.least place = some written)
    (hfield : field ∈ form.fields) (hown : written field.name = some own) :
    sizeOf own.node < sizeOf place.node := by
  obtain ⟨room, node⟩ := place
  cases room with
  | zero => cases h
  | succ room =>
      cases node with
      | record members =>
          obtain ⟨named, hnamed, hfields⟩ := Option.bind_eq_some_iff.1 h
          exact sizeOf_of_members? hnamed (mem_of_namedFields hfields hown)
      | list items =>
          have hfields : orderedFields form.names form.least (items.map (Place.mk room)) =
            some written := h
          obtain ⟨index, hindex⟩ :=
            List.getElem?_of_mem (List.mem_map_of_mem (f := Field.name) hfield)
          rw [orderedFields_getElem? form.names_nodup hfields hindex] at hown
          obtain ⟨item, hitem, rfl⟩ := List.mem_map.1 (List.mem_of_getElem? hown)
          have hsize := List.sizeOf_lt_of_mem hitem
          show sizeOf item < sizeOf (Node.list items)
          rw [Node.list.sizeOf_spec]
          omega
      | _ => cases h

/-! ## Reading is sound -/

theorem partsMean_of_readParts {α : Type} {fields : List Field}
    {written : String → Option Place} {make : Parts fields → α} {result : α}
    (hsound : ∀ field ∈ fields, ∀ own, written field.name = some own → Sound own)
    (h : readParts fields written make = some result) :
    ∃ parts, PartsMean fields written parts ∧ result = make parts := by
  induction fields with
  | nil =>
      cases h
      exact ⟨(), .nil, rfl⟩
  | cons field rest ih =>
      rw [List.forall_mem_cons] at hsound
      rw [readParts] at h
      obtain ⟨part, hpart, hrest⟩ := Option.bind_eq_some_iff.1 h
      obtain ⟨others, hothers, rfl⟩ := ih hsound.2 hrest
      rw [Field.read_eq] at hpart
      cases hgiven : field.given (written field.name) with
      | none =>
          rw [hgiven] at hpart
          cases hpart
          exact ⟨_, .absent hgiven hothers, rfl⟩
      | some own =>
          rw [hgiven] at hpart
          obtain ⟨meaning, hmeaning, rfl⟩ := Option.map_eq_some_iff.1 hpart
          have hown := hsound.1 own (field.of_given hgiven) field.shape meaning hmeaning
          exact ⟨_, .present hgiven hown hothers, rfl⟩

theorem entriesMean_of_entries {entry : Shape} {members : List (String × Place)}
    {written : List (String × entry.Meaning)} (hsound : ∀ member ∈ members, Sound member.2)
    (h : Encoding.entries entry.read members = some written) :
    EntriesMean entry members written := by
  induction members generalizing written with
  | nil =>
      cases h
      exact .nil
  | cons member rest ih =>
      rw [List.forall_mem_cons] at hsound
      rw [entries_cons] at h
      obtain ⟨meaning, hmeaning, h⟩ := Option.bind_eq_some_iff.1 h
      obtain ⟨others, hothers, rfl⟩ := Option.map_eq_some_iff.1 h
      exact .cons (hsound.1 _ _ hmeaning) (ih hsound.2 hothers)

theorem itemsMean_of_mapM {item : Shape} {places : List Place} {items : List item.Meaning}
    (hsound : ∀ own ∈ places, Sound own) (h : places.mapM item.read = some items) :
    ItemsMean item places items := by
  have hall := mapM_eq_some_iff.1 h
  clear h
  induction hall with
  | nil => exact .nil
  | cons hown _ ih =>
      rw [List.forall_mem_cons] at hsound
      exact .cons (hsound.1 _ _ hown) (ih hsound.2)

theorem node_of_bool {room : Nat} {node : Node} {value : Bool}
    (h : valueWithin room node = some (.bool value)) : node = .bool value := by
  cases node <;> simp_all [valueWithin]

theorem node_of_text {room : Nat} {node : Node} {value : String}
    (h : valueWithin room node = some (.text value)) : node = .text (some value) := by
  cases node <;> simp_all [valueWithin]

theorem node_of_list {room : Nat} {node : Node} {values : List Value}
    (h : valueWithin room node = some (.list values)) :
    ∃ inner nodes, room = inner + 1 ∧ node = .list nodes ∧
      valuesWithin inner nodes = some values := by
  cases node with
  | list nodes =>
      cases room with
      | zero => cases h
      | succ inner => exact ⟨inner, nodes, rfl, rfl, by simpa [valueWithin] using h⟩
  | _ => simp [valueWithin] at h

theorem texts_of_values {room : Nat} {nodes : List Node} {values : List Value}
    {names : List String} (hvalues : valuesWithin room nodes = some values)
    (hnames : values.mapM readText = some names) :
    nodes = names.map fun name => .text (some name) := by
  induction nodes generalizing values names with
  | nil =>
      cases hvalues
      cases hnames
      rfl
  | cons node rest ih =>
      obtain ⟨value, hvalue, h⟩ := Option.bind_eq_some_iff.1 hvalues
      obtain ⟨others, hothers, heq⟩ := Option.bind_eq_some_iff.1 h
      cases heq
      rw [List.mapM_cons] at hnames
      obtain ⟨name, hname, h⟩ := Option.bind_eq_some_iff.1 hnames
      obtain ⟨more, hmore, heq⟩ := Option.bind_eq_some_iff.1 h
      cases heq
      cases value with
      | text s =>
          cases hname
          rw [List.map_cons, ← ih hothers hmore, node_of_text hvalue]
      | _ => cases hname

theorem flag_sound {own : Place} {value : Bool} (h : flag own = some value) :
    Means .flag own value := by
  obtain ⟨room, node⟩ := own
  obtain ⟨meant, hmeant, hvalue⟩ := Option.bind_eq_some_iff.1 h
  cases meant with
  | bool b =>
      cases hvalue
      obtain rfl : node = .bool value := node_of_bool hmeant
      exact .flag
  | _ => cases hvalue

theorem text_sound {own : Place} {value : String} (h : encoding.text own = some value) :
    Means .text own value := by
  obtain ⟨room, node⟩ := own
  cases node with
  | text s =>
      cases h
      exact .text
  | _ => cases h

theorem type_sound {own : Place} {keyword : TypeKeyword} (h : typeKeyword own = some keyword) :
    Means .type own keyword := by
  obtain ⟨room, node⟩ := own
  obtain ⟨meant, hmeant, hkeyword⟩ := Option.bind_eq_some_iff.1 h
  cases meant with
  | text name =>
      cases hkeyword
      obtain rfl : node = .text (some name) := node_of_text hmeant
      exact .one
  | list values =>
      obtain ⟨names, hnames, rfl⟩ := Option.map_eq_some_iff.1 hkeyword
      obtain ⟨inner, nodes, rfl, rfl, hvalues⟩ := node_of_list hmeant
      obtain rfl := texts_of_values hvalues hnames
      exact .several
  | _ => cases hkeyword

/-- A record that is read means what its fields mean, if what is smaller is sound. -/
theorem readFields_sound {form : Form} {place : Place} {meaning : form.Meaning}
    (hsound : ∀ own : Place, sizeOf own.node < sizeOf place.node → Sound own)
    (h : form.readFields place = some meaning) : Means (.record form) place meaning := by
  obtain ⟨written, hwritten, h⟩ := Option.bind_eq_some_iff.1 h
  obtain ⟨parts, hparts, rfl⟩ := partsMean_of_readParts
    (fun field hfield own hown => hsound own (sizeOf_of_fields hwritten hfield hown)) h
  exact .record hwritten hparts

theorem table_sound {entry : Shape} {place : Place} {map : OrderedMap entry.Meaning}
    (hsound : ∀ own : Place, sizeOf own.node < sizeOf place.node → Sound own)
    (h : encoding.orderedMap entry.read place = some map) : Means (.table entry) place map := by
  rw [orderedMap_eq] at h
  obtain ⟨members, hmembers, h⟩ := Option.bind_eq_some_iff.1 h
  obtain ⟨written, hwritten, rfl⟩ := Option.map_eq_some_iff.1 h
  refine .table hmembers (entriesMean_of_entries (fun member hmem => ?_) hwritten)
    (OrderedMap.kept_ofList written)
  exact hsound member.2 (sizeOf_of_table hmembers hmem)

theorem list_sound {item : Shape} {place : Place} {items : List item.Meaning}
    (hsound : ∀ own : Place, sizeOf own.node < sizeOf place.node → Sound own)
    (h : readItems item.read place = some items) : Means (.list item) place items := by
  obtain ⟨room, node⟩ := place
  unfold readItems at h
  split at h
  · rename_i inner nodes hroom hnode
    cases hroom
    cases hnode
    refine .list (itemsMean_of_mapM (fun own hmem => ?_) h)
    obtain ⟨node, hnode, rfl⟩ := List.mem_map.1 hmem
    have hsize := List.sizeOf_lt_of_mem hnode
    apply hsound
    show sizeOf node < sizeOf (Node.list nodes)
    rw [Node.list.sizeOf_spec]
    omega
  · cases h

theorem record_sound {form : Form} {place : Place} {meaning : form.Meaning}
    (hsound : ∀ own : Place, sizeOf own.node < sizeOf place.node → Sound own)
    (h : form.read place = some meaning) : Means (.record form) place meaning := by
  cases hwhole : form.isWhole with
  | false =>
      rw [Form.read_eq hwhole] at h
      exact readFields_sound hsound h
  | true =>
      cases form with
      | schema =>
          by_cases hbool : ∃ b, place.node = .bool b
          · obtain ⟨b, hnode⟩ := hbool
            obtain ⟨room, node⟩ := place
            obtain rfl : node = .bool b := hnode
            have hread : encoding.schema ⟨room, .bool b⟩ = some (.boolean b) := by
              rw [schema_eq_bind]
              show readSchema (.bool b) = _
              rw [readSchema]
            obtain rfl := Option.some.inj (hread.symm.trans h)
            exact .boolean
          · rw [Form.read_schema fun b hb => hbool ⟨b, hb⟩] at h
            obtain ⟨_, _, hfields⟩ := Option.bind_eq_some_iff.1 h
            exact readFields_sound hsound hfields
      | _ => cases hwhole

/-- Whatever is read of a place is what stands in it means. -/
theorem sound (place : Place) : Sound place := by
  intro shape meaning h
  have hsound : ∀ own : Place, sizeOf own.node < sizeOf place.node → Sound own :=
    fun own _hlt => sound own
  cases shape with
  | text => exact text_sound h
  | flag => exact flag_sound h
  | type => exact type_sound h
  | record form => exact record_sound hsound h
  | table entry => exact table_sound hsound h
  | list item => exact list_sound hsound h
termination_by sizeOf place.node

end DateReviver.Reading.Json
