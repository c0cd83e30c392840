import DateReviver.Proofs.Reading.Shape

/-!
# Other spellings of a document

The same document can be written with the fields of its records in another order, with other
fields among them, and with null or nothing at all for a field that is absent. Whatever is
respelled, at whatever depth, the same document is read.
-/

namespace DateReviver.Reading.Json

open DateReviver.Json (Node)

/-- Whether all that stands in a shape must have a meaning. -/
def Shape.isWhole : Shape → Bool
  | .text | .flag | .type => true
  | .record form => form.isWhole
  | .table entry => entry.isWhole
  | .list item => item.isWhole

/-- Trees of one shape that differ in their spelling, where so many containers may be entered. -/
inductive Respelled : Shape → Nat → Node → Node → Prop
  | refl {shape : Shape} {room : Nat} (node : Node) : Respelled shape room node node
  | symm {shape : Shape} {room : Nat} {node node' : Node} (h : Respelled shape room node node') :
      Respelled shape room node' node
  | trans {shape : Shape} {room : Nat} {node between node' : Node}
      (first : Respelled shape room node between) (second : Respelled shape room between node') :
      Respelled shape room node node'
  /-- The fields of a record in another order. -/
  | reordered {form : Form} {room : Nat} {members members' : List (Option String × Node)}
      (h : members.Perm members') :
      Respelled (.record form) (room + 1) (.record members) (.record members')
  /-- One more field that is not known. Of a record that is read whole, it must have a meaning. -/
  | unknown {form : Form} {room : Nat} {before after : List (Option String × Node)} {name : String}
      {value : Node} (hname : name ∉ form.names)
      (hvalue : form.isWhole = true → (valueWithin room value).isSome) :
      Respelled (.record form) (room + 1) (.record (before ++ after))
        (.record (before ++ (some name, value) :: after))
  /-- Null for a field that is absent. -/
  | null {form : Form} {room : Nat} {before after : List (Option String × Node)} {field : Field}
      (hfield : field ∈ form.fields) (hnullable : field.nullable = true)
      (habsent : some field.name ∉ (before ++ after).map Prod.fst) :
      Respelled (.record form) (room + 1) (.record (before ++ after))
        (.record (before ++ (some field.name, .null) :: after))
  /-- Within a field. -/
  | field {form : Form} {room : Nat} {before after : List (Option String × Node)} {field : Field}
      {value value' : Node} (hfield : field ∈ form.fields)
      (h : Respelled field.shape room value value') :
      Respelled (.record form) (room + 1) (.record (before ++ (some field.name, value) :: after))
        (.record (before ++ (some field.name, value') :: after))
  /-- Within a field of a record that is given in order. -/
  | place {form : Form} {room : Nat} {before after : List Node} {field : Field}
      {value value' : Node} (hfield : form.fields[before.length]? = some field)
      (h : Respelled field.shape room value value') :
      Respelled (.record form) (room + 1) (.list (before ++ value :: after))
        (.list (before ++ value' :: after))
  /-- Within an entry of a table. -/
  | entry {shape : Shape} {room : Nat} {before after : List (Option String × Node)} {name : String}
      {value value' : Node} (h : Respelled shape room value value') :
      Respelled (.table shape) (room + 1) (.record (before ++ (some name, value) :: after))
        (.record (before ++ (some name, value') :: after))
  /-- Within an item of a list. -/
  | item {shape : Shape} {room : Nat} {before after : List Node} {value value' : Node}
      (h : Respelled shape room value value') :
      Respelled (.list shape) (room + 1) (.list (before ++ value :: after))
        (.list (before ++ value' :: after))

/-- What stands in a record that is read whole is read whole. -/
theorem Form.isWhole_field {form : Form} {field : Field} (hwhole : form.isWhole = true)
    (hfield : field ∈ form.fields) : field.shape.isWhole = true := by
  cases form with
  | schema =>
      simp only [Form.fields, List.mem_cons, List.not_mem_nil, or_false] at hfield
      rcases hfield with rfl | rfl | rfl | rfl | rfl | rfl | rfl | rfl <;> rfl
  | _ => cases hwhole

/-- Trees that nothing can tell apart that reads them as of one shape. -/
structure Alike (shape : Shape) (room : Nat) (node node' : Node) : Prop where
  null : node = .null ↔ node' = .null
  read : shape.read ⟨room, node⟩ = shape.read ⟨room, node'⟩
  whole : shape.isWhole = true →
    ((valueWithin room node).isSome ↔ (valueWithin room node').isSome)

namespace Alike

variable {shape : Shape} {form : Form} {room : Nat} {node node' : Node}

/-- A field is read alike where what stands in it is alike. -/
theorem field_read {field : Field} {value value' : Node} (h : Alike field.shape room value value') :
    field.read (some ⟨room, value⟩) = field.read (some ⟨room, value'⟩) := by
  by_cases hnull : value = .null
  · rw [hnull, h.null.1 hnull]
  · have hnull' : value' ≠ .null := fun hother => hnull (h.null.2 hother)
    rw [Field.read_some hnull, Field.read_some hnull', h.read]

/-- A record is read alike where its fields are. -/
theorem of_fields (hnode : ∀ b, node ≠ .bool b) (hnode' : ∀ b, node' ≠ .bool b)
    (hnull : node ≠ .null) (hnull' : node' ≠ .null)
    (hfields : Option.Rel
      (fun written written' =>
        ∀ field ∈ form.fields, field.read (written field.name) = field.read (written' field.name))
      (encoding.fields form.names form.least ⟨room, node⟩)
      (encoding.fields form.names form.least ⟨room, node'⟩))
    (hwhole : form.isWhole = true →
      ((valueWithin room node).isSome ↔ (valueWithin room node').isSome)) :
    Alike (.record form) room node node' := by
  have hread : form.readFields ⟨room, node⟩ = form.readFields ⟨room, node'⟩ := by
    unfold Form.readFields
    generalize encoding.fields form.names form.least ⟨room, node⟩ = written at hfields
    generalize encoding.fields form.names form.least ⟨room, node'⟩ = written' at hfields
    cases hfields with
    | none => rfl
    | some hparts => exact readParts_congr hparts _
  refine ⟨iff_of_false hnull hnull', ?_, hwhole⟩
  show form.read _ = form.read _
  cases hform : form.isWhole with
  | false => rw [Form.read_eq hform, Form.read_eq hform, hread]
  | true =>
      cases form with
      | schema =>
          rw [Form.read_schema hnode, Form.read_schema hnode', hread]
          have hsome : (encoding.value ⟨room, node⟩).isSome ↔ (encoding.value ⟨room, node'⟩).isSome :=
            hwhole rfl
          cases hvalue : encoding.value ⟨room, node⟩ <;>
            cases hvalue' : encoding.value ⟨room, node'⟩ <;> simp [hvalue, hvalue'] at hsome ⊢
      | _ => cases hform

theorem of_members {members members' : List (Option String × Node)}
    (hfields : Option.Rel
      (fun written written' =>
        ∀ field ∈ form.fields, field.read (written field.name) = field.read (written' field.name))
      (recordFields form.names room members) (recordFields form.names room members'))
    (hwhole : form.isWhole = true →
      ((valueWithin (room + 1) (.record members)).isSome ↔
        (valueWithin (room + 1) (.record members')).isSome)) :
    Alike (.record form) (room + 1) (.record members) (.record members') := by
  refine of_fields ?_ ?_ ?_ ?_ hfields hwhole
  all_goals
    intros
    intro habsurd
    cases habsurd

theorem reordered {members members' : List (Option String × Node)} (h : members.Perm members') :
    Alike (.record form) (room + 1) (.record members) (.record members') := by
  refine of_members (optionRel_imp (recordFields_perm h) ?_) fun _ => ?_
  · intro written written' hsame field hfield
    rw [hsame field.name (List.mem_map_of_mem hfield)]
  · rw [isSome_record_iff, isSome_record_iff]
    exact ⟨fun hall member hmem => hall member (h.mem_iff.2 hmem),
      fun hall member hmem => hall member (h.mem_iff.1 hmem)⟩

variable {before after : List (Option String × Node)} {name : String} {value value' : Node}

theorem inserted (hfresh : name ∉ form.names ∨ some name ∉ (before ++ after).map Prod.fst)
    (hread : ∀ field ∈ form.fields, field.name = name →
      field.read none = field.read (some ⟨room, value⟩))
    (hvalue : form.isWhole = true → (valueWithin room value).isSome) :
    Alike (.record form) (room + 1) (.record (before ++ after))
      (.record (before ++ (some name, value) :: after)) := by
  refine of_members (optionRel_imp (recordFields_insert hfresh) ?_) fun hwhole => ?_
  · intro written written' hsame field hfield
    rcases hsame field.name (List.mem_map_of_mem hfield) with heq | ⟨hname, hnone, hsome⟩
    · rw [heq]
    · rw [hnone, hsome, hread field hfield hname]
  · rw [isSome_record_iff, isSome_record_iff]
    have hown := hvalue hwhole
    simp only [List.mem_append, List.mem_cons]
    constructor
    · intro hall member hmem
      rcases hmem with hbefore | rfl | hafter
      · exact hall member (.inl hbefore)
      · exact ⟨rfl, hown⟩
      · exact hall member (.inr hafter)
    · intro hall member hmem
      exact hall member (hmem.imp_right .inr)

theorem within_field {field : Field} (hfield : field ∈ form.fields)
    (h : Alike field.shape room value value') :
    Alike (.record form) (room + 1) (.record (before ++ (some field.name, value) :: after))
      (.record (before ++ (some field.name, value') :: after)) := by
  refine of_members (optionRel_imp (recordFields_replace field.name value value') ?_)
    fun hwhole => ?_
  · intro written written' hsame other hother
    rcases hsame other.name (List.mem_map_of_mem hother) with heq | ⟨hname, hwritten, hwritten'⟩
    · rw [heq]
    · obtain rfl := Form.eq_of_name hother hfield hname
      rw [hwritten, hwritten', h.field_read]
  · have hown := h.whole (Form.isWhole_field hwhole hfield)
    rw [isSome_record_iff, isSome_record_iff]
    simp [or_imp, forall_and, hown]

theorem within_place {before after : List Node} {field : Field}
    (hfield : form.fields[before.length]? = some field)
    (h : Alike field.shape room value value') :
    Alike (.record form) (room + 1) (.list (before ++ value :: after))
      (.list (before ++ value' :: after)) := by
  have hfields := @orderedFields_replace form.names form.names_nodup form.least
    (before.map (Place.mk room)) (after.map (Place.mk room)) ⟨room, value⟩ ⟨room, value'⟩
  rw [← List.map_cons, ← List.map_cons, ← List.map_append, ← List.map_append] at hfields
  refine of_fields (fun _ h => by cases h) (fun _ h => by cases h) (fun h => by cases h)
    (fun h => by cases h) (optionRel_imp hfields ?_) fun hwhole => ?_
  · intro written written' hsame other hother
    rcases hsame other.name (List.mem_map_of_mem hother) with heq | ⟨hplace, hwritten, hwritten'⟩
    · rw [heq]
    · rw [List.length_map, Form.names, List.getElem?_map, hfield, Option.map_some,
        Option.some.injEq] at hplace
      obtain rfl := Form.eq_of_name (List.mem_of_getElem? hfield) hother hplace
      rw [hwritten, hwritten', h.field_read]
  · have hown := h.whole (Form.isWhole_field hwhole (List.mem_of_getElem? hfield))
    rw [isSome_list_iff, isSome_list_iff]
    simp [or_imp, forall_and, hown]

theorem entries_replace {α : Type} {read : Place → Option α} {name : String} {own own' : Place}
    (h : read own = read own') (first last : List (String × Place)) :
    Encoding.entries read (first ++ (name, own) :: last) =
      Encoding.entries read (first ++ (name, own') :: last) := by
  induction first with
  | nil => rw [List.nil_append, List.nil_append, entries_cons, entries_cons, h]
  | cons member rest ih => rw [List.cons_append, List.cons_append, entries_cons, entries_cons, ih]

theorem within_entry (h : Alike shape room value value') :
    Alike (.table shape) (room + 1) (.record (before ++ (some name, value) :: after))
      (.record (before ++ (some name, value') :: after)) := by
  refine ⟨by simp, ?_, fun hwhole => ?_⟩
  · show encoding.orderedMap shape.read _ = encoding.orderedMap shape.read _
    have htable : ∀ node : Node,
        encoding.table ⟨room + 1, .record (before ++ (some name, node) :: after)⟩ =
          (members? room before).bind fun first =>
            (members? room after).map fun last => first ++ (name, ⟨room, node⟩) :: last := by
      intro node
      show members? room _ = _
      rw [members?_append, members?_cons]
      congr 1
      funext first
      rw [Option.map_map]
      rfl
    rw [orderedMap_eq, orderedMap_eq, htable, htable]
    cases members? room before with
    | none => rfl
    | some first =>
        cases members? room after with
        | none => rfl
        | some last =>
            simp only [Option.bind_some, Option.map_some]
            rw [entries_replace h.read]
  · have hown := h.whole hwhole
    rw [isSome_record_iff, isSome_record_iff]
    simp [or_imp, forall_and, hown]

theorem within_item {before after : List Node} (h : Alike shape room value value') :
    Alike (.list shape) (room + 1) (.list (before ++ value :: after))
      (.list (before ++ value' :: after)) := by
  refine ⟨by simp, ?_, fun hwhole => ?_⟩
  · show List.mapM shape.read _ = List.mapM shape.read _
    simp only [List.map_append, List.map_cons, List.mapM_append, List.mapM_cons, h.read]
  · have hown := h.whole hwhole
    rw [isSome_list_iff, isSome_list_iff]
    simp [or_imp, forall_and, hown]

end Alike

/-- However a tree is respelled, nothing can tell the spellings apart. -/
theorem Respelled.alike {shape : Shape} {room : Nat} {node node' : Node}
    (h : Respelled shape room node node') : Alike shape room node node' := by
  induction h with
  | refl => exact ⟨.rfl, rfl, fun _ => .rfl⟩
  | symm _ ih => exact ⟨ih.null.symm, ih.read.symm, fun hwhole => (ih.whole hwhole).symm⟩
  | trans _ _ ihfirst ihsecond =>
      exact ⟨ihfirst.null.trans ihsecond.null, ihfirst.read.trans ihsecond.read,
        fun hwhole => (ihfirst.whole hwhole).trans (ihsecond.whole hwhole)⟩
  | reordered h => exact .reordered h
  | unknown hname hvalue =>
      refine .inserted (.inl hname) (fun field hfield hsame => ?_) hvalue
      exact absurd (hsame ▸ List.mem_map_of_mem hfield) hname
  | null hfield hnullable habsent =>
      refine .inserted (.inr habsent) (fun other hother hsame => ?_) fun _ => rfl
      obtain rfl := Form.eq_of_name hother hfield hsame
      exact (Field.read_null hnullable rfl).symm
  | field hfield _ ih => exact .within_field hfield ih
  | place hfield _ ih => exact .within_place hfield ih
  | entry _ ih => exact ih.within_entry
  | item _ ih => exact ih.within_item

end DateReviver.Reading.Json
