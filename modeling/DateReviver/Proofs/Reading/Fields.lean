import Mathlib.Data.List.Perm.Basic
import DateReviver.Proofs.OrderedMap
import DateReviver.Proofs.Reading.Schema

/-!
# The fields of a record

A record tells its fields by their names. Of the names that are asked for none may be given twice,
so it does not matter in what order they are given, and fields of other names do not matter at all.
-/

namespace DateReviver.Reading

open DateReviver.OpenApi
open DateReviver.Json (Node)

section Named

variable {ν : Type} {names : List String} {members members' : List (String × ν)}

/-- Which of the names asked for are given, in order. -/
def asked (names : List String) (members : List (String × ν)) : List String :=
  (members.map Prod.fst).filter names.contains

theorem namedFields_eq (names : List String) (members : List (String × ν)) :
    namedFields names members =
      if (asked names members).Nodup then some fun name => members.lookup name else none := rfl

theorem lookup_append (before after : List (String × ν)) (name : String) :
    (before ++ after).lookup name = (before.lookup name).or (after.lookup name) := by
  induction before with
  | nil => rfl
  | cons member rest ih =>
      obtain ⟨own, value⟩ := member
      rw [List.cons_append, List.lookup_cons, List.lookup_cons, ih]
      split <;> rfl

theorem lookup_perm {name : String} (h : members.Perm members') (hname : name ∈ names)
    (hnodup : (asked names members).Nodup) : members.lookup name = members'.lookup name := by
  induction h with
  | nil => rfl
  | cons member _ ih =>
      obtain ⟨own, value⟩ := member
      have hrest : (asked names _).Nodup := hnodup.sublist
        ((List.Sublist.map Prod.fst (List.sublist_cons_self _ _)).filter _)
      rw [List.lookup_cons, List.lookup_cons, ih hrest]
  | swap first second rest =>
      obtain ⟨own, value⟩ := first
      obtain ⟨other, held⟩ := second
      by_cases hown : name = own
      · by_cases hother : name = other
        · subst hown hother
          simp [asked, hname] at hnodup
        · rw [OrderedMap.lookup_cons_of_ne hother, hown]
          simp
      · rw [OrderedMap.lookup_cons_of_ne hown]
        by_cases hother : name = other
        · rw [hother]
          simp
        · rw [OrderedMap.lookup_cons_of_ne hother, OrderedMap.lookup_cons_of_ne hother,
            OrderedMap.lookup_cons_of_ne hown]
  | trans h _ ihfirst ihsecond =>
      have hnext := ((h.map Prod.fst).filter names.contains).nodup_iff.1 hnodup
      exact (ihfirst hnodup).trans (ihsecond hnext)

/-- Under the names that are asked for, a field is found wherever it is given. -/
theorem lookup_of_mem_asked {name : String} {value : ν} (hname : name ∈ names)
    (hnodup : (asked names members).Nodup) (hmem : (name, value) ∈ members) :
    members.lookup name = some value := by
  obtain ⟨before, after, rfl⟩ := List.append_of_mem hmem
  have hfirst := lookup_perm (List.perm_middle (a := (name, value))) hname hnodup
  rw [hfirst]
  simp

theorem asked_middle (before after : List (String × ν)) (name : String) (value : ν) :
    (asked names (before ++ (name, value) :: after)).Nodup ↔
      (asked names ((name, value) :: (before ++ after))).Nodup :=
  ((List.perm_middle.map Prod.fst).filter names.contains).nodup_iff

theorem asked_insert {before after : List (String × ν)} {name : String}
    (h : name ∉ names ∨ name ∉ (before ++ after).map Prod.fst) (value : ν) :
    (asked names (before ++ (name, value) :: after)).Nodup ↔
      (asked names (before ++ after)).Nodup := by
  rw [asked_middle, asked, List.map_cons]
  by_cases hname : name ∈ names
  · have hfresh := h.resolve_left (not_not.2 hname)
    rw [List.filter_cons_of_pos (by simpa using hname), List.nodup_cons]
    have hasked : name ∉ asked names (before ++ after) := by
      intro hmem
      exact hfresh (List.mem_filter.1 hmem).1
    exact and_iff_right hasked
  · rw [List.filter_cons_of_neg (by simpa using hname)]
    rfl

theorem lookup_middle (before after : List (String × ν)) (name : String) (value : ν)
    (other : String) : (before ++ (name, value) :: after).lookup other =
      (before.lookup other).or (if other = name then some value else after.lookup other) := by
  rw [lookup_append]
  congr 1
  by_cases h : other = name
  · subst h
    simp
  · rw [OrderedMap.lookup_cons_of_ne h, if_neg h]

end Named

/-! ## Records in JSON -/

namespace Json

variable {names : List String} {room : Nat} {before after : List (Option String × Node)}

/-- The fields of a record that may still be entered. -/
def recordFields (names : List String) (room : Nat) (members : List (Option String × Node)) :
    Option (String → Option Place) :=
  (members? room members).bind (namedFields names)

theorem members?_eq_some_iff {members : List (Option String × Node)}
    {named : List (String × Place)} : members? room members = some named ↔
      List.Forall₂ (fun member own => member = (some own.1, own.2.node) ∧ own.2.room = room)
        members named := by
  rw [members?, mapM_eq_some_iff]
  constructor
  · intro h
    refine h.imp fun member own hown => ?_
    obtain ⟨name, hname, rfl⟩ := Option.map_eq_some_iff.1 hown
    exact ⟨Prod.ext hname rfl, rfl⟩
  · intro h
    refine h.imp fun member own hown => ?_
    obtain ⟨name, place⟩ := own
    obtain ⟨rfl, rfl⟩ := hown
    rfl

theorem members?_append (room : Nat) (before after : List (Option String × Node)) :
    members? room (before ++ after) = (members? room before).bind fun first =>
      (members? room after).map fun last => first ++ last := by
  simp only [members?, List.mapM_append, Option.bind_eq_bind]
  congr 1
  funext first
  rw [Option.map_eq_bind]
  rfl

theorem members?_of_perm {members members' : List (Option String × Node)}
    {named : List (String × Place)} (h : members.Perm members')
    (hnamed : members? room members = some named) :
    ∃ named', members? room members' = some named' ∧ named.Perm named' := by
  obtain ⟨named', hall, hperm⟩ := List.perm_comp_forall₂ h.symm (members?_eq_some_iff.1 hnamed)
  exact ⟨named', members?_eq_some_iff.2 hall, hperm.symm⟩

theorem map_fst_of_members? {members : List (Option String × Node)}
    {named : List (String × Place)} (h : members? room members = some named) :
    members.map Prod.fst = named.map (some ∘ Prod.fst) := by
  have hall := members?_eq_some_iff.1 h
  clear h
  induction hall with
  | nil => rfl
  | cons hown _ ih =>
      rw [List.map_cons, List.map_cons, ih, hown.1]
      rfl

theorem mem_members?_iff {members : List (Option String × Node)} {named : List (String × Place)}
    (h : members? room members = some named) {name : String} {node : Node} :
    (name, ⟨room, node⟩) ∈ named ↔ (some name, node) ∈ members := by
  have hall := members?_eq_some_iff.1 h
  clear h
  induction hall with
  | nil => simp
  | @cons member own rest named hown _ ih =>
      obtain ⟨key, place⟩ := own
      obtain ⟨rfl, hroom⟩ := hown
      have hplace : (⟨room, node⟩ : Place) = place ↔ node = place.node := by
        rw [← show place.room = room from hroom]
        cases place
        simp
      have hrest : (name, (⟨room, node⟩ : Place)) ∈ named ↔ (some name, node) ∈ rest := ih
      rw [List.mem_cons, List.mem_cons, hrest, Prod.mk.injEq, Prod.mk.injEq, Option.some.injEq,
        hplace]

theorem room_of_members? {members : List (Option String × Node)} {named : List (String × Place)}
    (h : members? room members = some named) {member : String × Place} (hmem : member ∈ named) :
    member.2.room = room := by
  obtain ⟨_, _, hown⟩ := exists_of_mem_right (members?_eq_some_iff.1 h) hmem
  exact hown.2

/-- Of a record that is given by name, a field that is asked for is the member of its name. -/
theorem recordFields_of_mem {members : List (Option String × Node)}
    {field : String → Option Place} (hfields : recordFields names room members = some field)
    {name : String} {node : Node} (hname : name ∈ names) (hmem : (some name, node) ∈ members) :
    field name = some ⟨room, node⟩ := by
  obtain ⟨named, hnamed, hfields⟩ := Option.bind_eq_some_iff.1 hfields
  rw [namedFields_eq] at hfields
  split at hfields
  · rename_i hnodup
    cases hfields
    exact lookup_of_mem_asked hname hnodup ((mem_members?_iff hnamed).2 hmem)
  · cases hfields

/-- What two lists give as fields is related if both repeat a field that is asked for or neither
does, and what is found in them is related. -/
theorem namedFields_rel {named named' : List (String × Place)}
    {R : (String → Option Place) → (String → Option Place) → Prop}
    (hasked : (asked names named).Nodup ↔ (asked names named').Nodup)
    (h : (asked names named).Nodup →
      R (fun name => named.lookup name) fun name => named'.lookup name) :
    Option.Rel R (namedFields names named) (namedFields names named') := by
  rw [namedFields_eq, namedFields_eq]
  by_cases hnodup : (asked names named).Nodup
  · rw [if_pos hnodup, if_pos (hasked.1 hnodup)]
    exact .some (h hnodup)
  · rw [if_neg hnodup, if_neg fun h => hnodup (hasked.2 h)]
    exact .none

/-- In which order fields are given makes no difference. -/
theorem recordFields_perm {members members' : List (Option String × Node)}
    (h : members.Perm members') :
    Option.Rel (fun field field' => ∀ name ∈ names, field name = field' name)
      (recordFields names room members) (recordFields names room members') := by
  unfold recordFields
  cases hnamed : members? room members with
  | none =>
      cases hother : members? room members' with
      | none => exact .none
      | some named' =>
          obtain ⟨named, hsame, _⟩ := members?_of_perm h.symm hother
          rw [hnamed] at hsame
          cases hsame
  | some named =>
      obtain ⟨named', hother, hperm⟩ := members?_of_perm h hnamed
      rw [hother, Option.bind_some, Option.bind_some]
      exact namedFields_rel ((hperm.map Prod.fst).filter names.contains).nodup_iff
        fun hnodup name hname => lookup_perm hperm hname hnodup

/-- A field that is not asked for makes no difference, nor does one more field to any other. -/
theorem recordFields_insert {name : String} {value : Node}
    (h : name ∉ names ∨ some name ∉ (before ++ after).map Prod.fst) :
    Option.Rel (fun field field' => ∀ other ∈ names,
        field other = field' other ∨
          other = name ∧ field other = none ∧ field' other = some ⟨room, value⟩)
      (recordFields names room (before ++ after))
      (recordFields names room (before ++ (some name, value) :: after)) := by
  unfold recordFields
  rw [members?_append, members?_append, members?_cons]
  cases hbefore : members? room before with
  | none => exact .none
  | some first =>
      cases hafter : members? room after with
      | none => exact .none
      | some last =>
          simp only [Option.map_some, Option.bind_some]
          have hnames : (before ++ after).map Prod.fst = (first ++ last).map (some ∘ Prod.fst) := by
            rw [List.map_append, List.map_append, map_fst_of_members? hbefore,
              map_fst_of_members? hafter]
          have hfresh : name ∉ names ∨ name ∉ (first ++ last).map Prod.fst := by
            refine h.imp_right fun hnot hmem => hnot ?_
            rw [hnames, ← List.map_map]
            exact List.mem_map_of_mem hmem
          refine namedFields_rel (asked_insert hfresh _).symm fun _ other hother => ?_
          dsimp only
          rw [lookup_append, lookup_middle]
          by_cases hsame : other = name
          · subst hsame
            have habsent := hfresh.resolve_left (not_not.2 hother)
            rw [List.map_append, List.mem_append, not_or] at habsent
            rw [OrderedMap.lookup_eq_none_iff_keys.2 habsent.1,
              OrderedMap.lookup_eq_none_iff_keys.2 habsent.2, if_pos rfl]
            exact .inr ⟨rfl, rfl, rfl⟩
          · rw [if_neg hsame]
            exact .inl rfl

/-- A field that is replaced makes no difference to any other. -/
theorem recordFields_replace (name : String) (value value' : Node) :
    Option.Rel (fun field field' => ∀ other ∈ names,
        field other = field' other ∨
          other = name ∧ field other = some ⟨room, value⟩ ∧ field' other = some ⟨room, value'⟩)
      (recordFields names room (before ++ (some name, value) :: after))
      (recordFields names room (before ++ (some name, value') :: after)) := by
  unfold recordFields
  rw [members?_append, members?_append, members?_cons, members?_cons]
  cases members? room before with
  | none => exact .none
  | some first =>
      cases members? room after with
      | none => exact .none
      | some last =>
          simp only [Option.map_some, Option.bind_some]
          have hasked : asked names (first ++ (name, ⟨room, value⟩) :: last) =
              asked names (first ++ (name, ⟨room, value'⟩) :: last) := by
            simp [asked]
          refine namedFields_rel (by rw [hasked]) fun _ other _ => ?_
          dsimp only
          rw [lookup_middle, lookup_middle]
          by_cases hsame : other = name
          · rw [if_pos hsame, if_pos hsame]
            cases first.lookup other with
            | none => exact .inr ⟨hsame, rfl, rfl⟩
            | some own => exact .inl rfl
          · rw [if_neg hsame, if_neg hsame]
            exact .inl rfl

/-! ## Fields in their order -/

/-- The same of a field in a list. -/
theorem orderedFields_replace (hnodup : names.Nodup) {least : Nat} {before after : List Place}
    (own own' : Place) :
    Option.Rel (fun field field' => ∀ other ∈ names,
        field other = field' other ∨ names[before.length]? = some other ∧
          field other = some own ∧ field' other = some own')
      (orderedFields names least (before ++ own :: after))
      (orderedFields names least (before ++ own' :: after)) := by
  unfold orderedFields
  have hlength : (before ++ own' :: after).length = (before ++ own :: after).length := by
    simp
  rw [hlength]
  split
  · refine .some fun other hother => ?_
    obtain ⟨place, hplace⟩ := List.getElem?_of_mem hother
    rw [lookup_zip hnodup hplace, lookup_zip hnodup hplace]
    by_cases hsame : place = before.length
    · subst hsame
      exact .inr ⟨hplace, by simp, by simp⟩
    · refine .inl ?_
      by_cases hlt : place < before.length
      · rw [List.getElem?_append_left hlt, List.getElem?_append_left hlt]
      · obtain ⟨more, hmore⟩ : ∃ more, place - before.length = more + 1 :=
          ⟨place - before.length - 1, by omega⟩
        rw [List.getElem?_append_right (by omega), List.getElem?_append_right (by omega), hmore,
          List.getElem?_cons_succ, List.getElem?_cons_succ]
  · exact .none

/-! ## Containers all of which has a meaning -/

theorem isSome_valuesWithin_iff {items : List Node} :
    (valuesWithin room items).isSome ↔ ∀ node ∈ items, (valueWithin room node).isSome := by
  induction items with
  | nil => simp [valuesWithin]
  | cons node rest ih =>
      rw [List.forall_mem_cons, ← ih, valuesWithin]
      cases valueWithin room node <;> cases valuesWithin room rest <;> simp

theorem isSome_membersWithin_iff {members : List (Option String × Node)} :
    (membersWithin room members).isSome ↔
      ∀ member ∈ members, member.1.isSome ∧ (valueWithin room member.2).isSome := by
  induction members with
  | nil => simp [membersWithin]
  | cons member rest ih =>
      obtain ⟨name, node⟩ := member
      rw [List.forall_mem_cons, ← ih, membersWithin]
      cases name <;> cases valueWithin room node <;> cases membersWithin room rest <;> simp

theorem isSome_list_iff {items : List Node} : (valueWithin (room + 1) (.list items)).isSome ↔
    ∀ node ∈ items, (valueWithin room node).isSome := by
  simp [valueWithin, isSome_valuesWithin_iff]

theorem isSome_record_iff {members : List (Option String × Node)} :
    (valueWithin (room + 1) (.record members)).isSome ↔
      ∀ member ∈ members, member.1.isSome ∧ (valueWithin room member.2).isSome := by
  simp [valueWithin, isSome_membersWithin_iff]

end Json

end DateReviver.Reading
