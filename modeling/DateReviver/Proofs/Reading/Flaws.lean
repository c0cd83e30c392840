import Mathlib.Data.List.Count
import DateReviver.Proofs.Reading.Shape

/-!
# Flaws

A field that is known and given twice, or a null for an entry of a table, is a flaw. Of a tree with
a flaw nothing is read, wherever in it the flaw is, if only it stands where the shape is known.
-/

namespace DateReviver.Reading.Json

open DateReviver.Json (Node)

/-- A tree of some shape has a flaw. -/
inductive Flawed : Shape → Node → Prop
  /-- A field is given twice. -/
  | repeated {form : Form} {before between after : List (Option String × Node)} {field : Field}
      {first second : Node} (hfield : field ∈ form.fields) :
      Flawed (.record form) (.record
        (before ++ (some field.name, first) :: (between ++ (some field.name, second) :: after)))
  /-- An entry is null. -/
  | null {form : Form} {members : List (Option String × Node)} {name : Option String}
      (hmem : (name, .null) ∈ members) : Flawed (.table (.record form)) (.record members)
  /-- A field has a flaw. -/
  | field {form : Form} {members : List (Option String × Node)} {field : Field} {value : Node}
      (hfield : field ∈ form.fields) (hmem : (some field.name, value) ∈ members)
      (h : Flawed field.shape value) : Flawed (.record form) (.record members)
  /-- A field of a record that is given in order has a flaw. -/
  | place {form : Form} {nodes : List Node} {index : Nat} {field : Field} {value : Node}
      (hfield : form.fields[index]? = some field) (hvalue : nodes[index]? = some value)
      (h : Flawed field.shape value) : Flawed (.record form) (.list nodes)
  /-- An entry of a table has a flaw. -/
  | entry {entry : Shape} {members : List (Option String × Node)} {name : Option String}
      {value : Node} (hmem : (name, value) ∈ members) (h : Flawed entry value) :
      Flawed (.table entry) (.record members)
  /-- An item of a list has a flaw. -/
  | item {item : Shape} {nodes : List Node} {value : Node} (hmem : value ∈ nodes)
      (h : Flawed item value) : Flawed (.list item) (.list nodes)

theorem Flawed.ne_null {shape : Shape} {node : Node} (h : Flawed shape node) : node ≠ .null := by
  rintro rfl
  cases h

/-! ## What cannot be read -/

theorem Form.read_eq_none {form : Form} {place : Place} (hbool : ∀ b, place.node ≠ .bool b)
    (h : form.readFields place = none) : form.read place = none := by
  cases hwhole : form.isWhole with
  | false => rw [Form.read_eq hwhole, h]
  | true =>
      cases form with
      | schema =>
          rw [Form.read_schema hbool, h]
          cases encoding.value place <;> rfl
      | _ => cases hwhole

theorem Form.read_node_null (form : Form) (room : Nat) : form.read ⟨room, .null⟩ = none := by
  apply Form.read_eq_none (fun b h => by cases h)
  cases room <;> rfl

/-- A record of which some field is not read. -/
theorem Form.read_of_field {form : Form} {place : Place} {field : Field}
    (hbool : ∀ b, place.node ≠ .bool b) (hfield : field ∈ form.fields)
    (h : ∀ written, encoding.fields form.names form.least place = some written →
      field.read (written field.name) = none) : form.read place = none := by
  apply Form.read_eq_none hbool
  rw [Form.readFields, Option.bind_eq_none_iff]
  intro written hwritten
  exact readParts_eq_none hfield (h written hwritten) _

theorem Field.read_eq_none {field : Field} {room : Nat} {node : Node} (hnull : node ≠ .null)
    (h : field.shape.read ⟨room, node⟩ = none) : field.read (some ⟨room, node⟩) = none := by
  rw [Field.read_some hnull, h]
  rfl

theorem entries_eq_none {α : Type} {read : Place → Option α} {members : List (String × Place)}
    {member : String × Place} (hmem : member ∈ members) (h : read member.2 = none) :
    Encoding.entries read members = none := by
  induction members with
  | nil => cases hmem
  | cons first rest ih =>
      rw [entries_cons]
      rcases List.mem_cons.1 hmem with rfl | hrest
      · rw [h, Option.bind_none]
      · rw [ih hrest]
        cases read first.2 <;> rfl

theorem orderedMap_eq_none {α : Type} {read : Place → Option α} {room : Nat}
    {members : List (Option String × Node)} {name : Option String} {node : Node}
    (hmem : (name, node) ∈ members) (h : ∀ room, read ⟨room, node⟩ = none) :
    encoding.orderedMap read ⟨room, .record members⟩ = none := by
  rw [orderedMap_eq, Option.bind_eq_none_iff]
  intro named hnamed
  cases room with
  | zero => cases hnamed
  | succ room =>
      have hmembers : members? room members = some named := hnamed
      obtain ⟨own, _, hown⟩ := exists_of_mem_left (members?_eq_some_iff.1 hmembers) hmem
      obtain ⟨key, place⟩ := own
      obtain ⟨hmember, _⟩ := hown
      cases hmember
      have hentry : (key, (⟨room, place.node⟩ : Place)) ∈ named :=
        (mem_members?_iff hmembers).2 hmem
      rw [entries_eq_none hentry (h room)]
      rfl

theorem recordFields_of_repeated {names : List String} {name : String} (hname : name ∈ names)
    {room : Nat} {before between after : List (Option String × Node)} {first second : Node} :
    recordFields names room
      (before ++ (some name, first) :: (between ++ (some name, second) :: after)) = none := by
  unfold recordFields
  rw [Option.bind_eq_none_iff]
  intro named hnamed
  rw [namedFields_eq, if_neg]
  intro hnodup
  have hasked := List.nodup_iff_count_le_one.1 hnodup name
  rw [asked, List.count_filter (by simpa using hname),
    ← List.count_map_of_injective _ some (fun _ _ => Option.some.inj), List.map_map,
    ← map_fst_of_members? hnamed] at hasked
  simp only [List.map_append, List.map_cons, List.count_append, List.count_cons_self] at hasked
  omega

theorem Flawed.unread {shape : Shape} {node : Node} (h : Flawed shape node) (room : Nat) :
    shape.read ⟨room, node⟩ = none := by
  induction h generalizing room with
  | @repeated form _ _ _ field _ _ hfield =>
      apply Form.read_eq_none (fun b h => by cases h)
      cases room with
      | zero => rfl
      | succ room =>
          have hname : field.name ∈ form.names := List.mem_map_of_mem hfield
          show (recordFields form.names room _).bind _ = none
          rw [recordFields_of_repeated hname]
          rfl
  | null hmem => exact orderedMap_eq_none hmem fun room => Form.read_node_null _ room
  | @field form members field value hfield hmem h ih =>
      refine Form.read_of_field (fun b h => by cases h) hfield fun written hwritten => ?_
      cases room with
      | zero => cases hwritten
      | succ room =>
          have hfields : recordFields form.names room members = some written := hwritten
          rw [recordFields_of_mem hfields (List.mem_map_of_mem hfield) hmem]
          exact Field.read_eq_none h.ne_null (ih room)
  | @place form nodes index field value hfield hvalue h ih =>
      refine Form.read_of_field (fun b h => by cases h) (List.mem_of_getElem? hfield)
        fun written hwritten => ?_
      cases room with
      | zero => cases hwritten
      | succ room =>
          have hfields : orderedFields form.names form.least (nodes.map (Place.mk room)) =
            some written := hwritten
          have hindex : form.names[index]? = some field.name := by
            rw [Form.names, List.getElem?_map, hfield]
            rfl
          rw [orderedFields_getElem? form.names_nodup hfields hindex, List.getElem?_map, hvalue]
          exact Field.read_eq_none h.ne_null (ih room)
  | entry hmem _ ih => exact orderedMap_eq_none hmem ih
  | @item item nodes value hmem _ ih =>
      cases room with
      | zero => rfl
      | succ room =>
          show List.mapM item.read (nodes.map (Place.mk room)) = none
          exact mapM_eq_none (List.mem_map_of_mem hmem) (ih room)

end DateReviver.Reading.Json
