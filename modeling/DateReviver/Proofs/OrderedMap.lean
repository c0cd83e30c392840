import Mathlib.Data.List.Induction
import Mathlib.Data.List.Perm.Subperm
import DateReviver.OrderedMap

/-!
# Looking up in ordered maps

Every operation of an ordered map is an observation of `get?`: an insertion is seen under its own
name and under no other, and entries under fresh names are appended as they stand.
-/

namespace DateReviver.OrderedMap

variable {α : Type}

theorem lookup_cons_of_ne {name key : String} (h : key ≠ name) (value : α)
    (entries : List (String × α)) :
    ((name, value) :: entries).lookup key = entries.lookup key := by
  rw [List.lookup_cons, beq_eq_false_iff_ne.mpr h]

theorem lookup_put (name key : String) (value : α) (entries : List (String × α)) :
    (put name value entries).lookup key =
      if key = name then some value else entries.lookup key := by
  induction entries with
  | nil =>
      by_cases h : key = name
      · simp [put, h]
      · rw [put, lookup_cons_of_ne h, if_neg h]
  | cons entry rest ih =>
      obtain ⟨head, held⟩ := entry
      by_cases hhead : head = name
      · subst hhead
        by_cases h : key = head
        · simp [put, h]
        · rw [put, if_pos rfl, lookup_cons_of_ne h, lookup_cons_of_ne h, if_neg h]
      · by_cases h : key = head
        · subst h
          simp [put, hhead]
        · rw [put, if_neg hhead, lookup_cons_of_ne h, lookup_cons_of_ne h]
          exact ih

theorem put_put (name : String) (value other : α) (entries : List (String × α)) :
    put name other (put name value entries) = put name other entries := by
  induction entries with
  | nil => simp [put]
  | cons entry rest ih =>
      by_cases h : entry.1 = name
      · simp [put, h]
      · simp [put, h, ih]

theorem put_middle {name : String} {before : List (String × α)}
    (h : name ∉ before.map Prod.fst) (value other : α) (after : List (String × α)) :
    put name other (before ++ (name, value) :: after) = before ++ (name, other) :: after := by
  induction before with
  | nil => simp [put]
  | cons entry rest ih =>
      rw [List.map_cons, List.mem_cons, not_or] at h
      rw [List.cons_append, put, if_neg fun heq => h.1 heq.symm, ih h.2, List.cons_append]

/-- Putting a value where it is changes nothing. -/
theorem put_of_lookup {name : String} {value : α} {entries : List (String × α)}
    (h : entries.lookup name = some value) : put name value entries = entries := by
  induction entries with
  | nil => cases h
  | cons entry rest ih =>
      obtain ⟨head, held⟩ := entry
      by_cases hhead : head = name
      · subst hhead
        simp only [List.lookup_cons, beq_self_eq_true] at h
        cases h
        simp [put]
      · rw [lookup_cons_of_ne (Ne.symm hhead)] at h
        rw [put, if_neg hhead, ih h]

theorem lookup_eq_none_iff_keys {name : String} {entries : List (String × α)} :
    entries.lookup name = none ↔ name ∉ entries.map Prod.fst := by
  rw [List.lookup_eq_none_iff, List.mem_map]
  constructor
  · rintro h ⟨entry, hentry, rfl⟩
    exact absurd rfl (bne_iff_ne.1 (h entry hentry))
  · intro h entry hentry
    rw [bne_iff_ne]
    rintro rfl
    exact h ⟨entry, hentry, rfl⟩

theorem put_eq_map {name : String} {value : α} {entries : List (String × α)}
    (hnodup : (entries.map Prod.fst).Nodup) (hmem : name ∈ entries.map Prod.fst) :
    put name value entries = entries.map fun entry =>
      if entry.1 = name then (name, value) else entry := by
  induction entries with
  | nil => cases hmem
  | cons entry rest ih =>
      rw [List.map_cons, List.nodup_cons] at hnodup
      by_cases hhead : entry.1 = name
      · have hrest : (rest.map fun entry => if entry.1 = name then (name, value) else entry)
            = rest := by
          refine (List.map_congr_left fun other hother => if_neg ?_).trans (List.map_id rest)
          rintro rfl
          exact hnodup.1 (hhead ▸ List.mem_map_of_mem hother)
        simp [put, hhead, hrest]
      · rw [List.map_cons, List.mem_cons] at hmem
        rw [put, if_neg hhead, List.map_cons, if_neg hhead,
          ih hnodup.2 (hmem.resolve_left fun heq => hhead heq.symm)]

@[simp]
theorem get?_empty (key : String) : (empty : OrderedMap α).get? key = none := rfl

theorem get?_insert (m : OrderedMap α) (name key : String) (value : α) :
    (m.insert name value).get? key = if key = name then some value else m.get? key :=
  lookup_put name key value m.entries

theorem mem_keys_iff {m : OrderedMap α} {name : String} :
    name ∈ m.keys ↔ ∃ value, m.get? name = some value := by
  constructor
  · intro h
    have hsome : (m.entries.lookup name).isSome := by
      rw [List.lookup_isSome_iff]
      obtain ⟨entry, hentry, rfl⟩ := List.mem_map.1 h
      exact ⟨entry, hentry, by simp⟩
    exact Option.isSome_iff_exists.1 hsome
  · rintro ⟨value, h⟩
    exact mem_keys_of_get? h

@[simp] theorem contains_iff {m : OrderedMap α} {name : String} :
    m.contains name = true ↔ name ∈ m.keys := by
  simp [contains]

/-- There are no more distinct names of a map than entries. -/
theorem length_le_size {m : OrderedMap α} {names : List String} (hnodup : names.Nodup)
    (hsubset : names ⊆ m.keys) : names.length ≤ m.size := by
  have hlength := (hnodup.subperm hsubset).length_le
  rwa [keys, List.length_map] at hlength

theorem mem_entries_iff {m : OrderedMap α} {name : String} {value : α} :
    (name, value) ∈ m.entries ↔ m.get? name = some value := by
  constructor
  · intro h
    obtain ⟨before, after, hsplit⟩ := List.append_of_mem h
    refine List.lookup_eq_some_iff.2 ⟨before, after, hsplit, ?_⟩
    intro entry hentry
    have hnodup := m.nodup
    rw [hsplit, List.map_append, List.map_cons, List.nodup_append] at hnodup
    have hne := hnodup.2.2 entry.1 (List.mem_map_of_mem hentry) name List.mem_cons_self
    simpa using fun heq => hne heq.symm
  · intro h
    obtain ⟨before, after, hsplit, _⟩ := List.lookup_eq_some_iff.1 h
    rw [hsplit]
    simp

/-- Under distinct names, an entry is found under its name. -/
theorem lookup_of_mem {entry : String × α} {entries : List (String × α)}
    (hnodup : (entries.map Prod.fst).Nodup) (hmem : entry ∈ entries) :
    entries.lookup entry.1 = some entry.2 :=
  mem_entries_iff.1 (show (entry.1, entry.2) ∈ (⟨entries, hnodup⟩ : OrderedMap α).entries from hmem)

/-! ## Insertion of several entries -/

theorem put_of_fresh {name : String} {value : α} {entries : List (String × α)}
    (h : name ∉ entries.map Prod.fst) : put name value entries = entries ++ [(name, value)] := by
  induction entries with
  | nil => rfl
  | cons entry rest ih =>
      rw [List.map_cons, List.mem_cons, not_or] at h
      rw [put, if_neg fun heq => h.1 heq.symm, ih h.2, List.cons_append]

@[simp] theorem insertAll_nil (m : OrderedMap α) : m.insertAll [] = m := rfl

@[simp] theorem insertAll_cons (m : OrderedMap α) (entry : String × α)
    (rest : List (String × α)) :
    m.insertAll (entry :: rest) = (m.insert entry.1 entry.2).insertAll rest := rfl

/-- Entries under fresh distinct names are appended. -/
theorem entries_insertAll_of_fresh {m : OrderedMap α} {more : List (String × α)}
    (hnodup : (more.map Prod.fst).Nodup) (hfresh : ∀ name ∈ more.map Prod.fst, name ∉ m.keys) :
    (m.insertAll more).entries = m.entries ++ more := by
  induction more generalizing m with
  | nil => simp
  | cons entry rest ih =>
      rw [List.map_cons, List.nodup_cons] at hnodup
      have hput : (m.insert entry.1 entry.2).entries = m.entries ++ [entry] :=
        put_of_fresh (hfresh entry.1 (by simp))
      rw [insertAll_cons, ih hnodup.2, hput, List.append_assoc, List.singleton_append]
      intro name hname hkeys
      rw [keys, hput, List.map_append, List.mem_append] at hkeys
      rcases hkeys with hold | hnew
      · exact hfresh name (by simp [hname]) hold
      · have heq : name = entry.1 := by simpa using hnew
        exact hnodup.1 (heq ▸ hname)

/-- Names inserted with one common value are found with it, all others as before. -/
theorem get?_insertAll_const (m : OrderedMap α) (names : List String) (value : α) (key : String) :
    (m.insertAll (names.map fun name => (name, value))).get? key =
      if key ∈ names then some value else m.get? key := by
  induction names generalizing m with
  | nil => simp
  | cons name rest ih =>
      rw [List.map_cons, insertAll_cons, ih, get?_insert]
      by_cases hrest : key ∈ rest
      · simp [hrest]
      · by_cases h : key = name
        · simp [h]
        · simp [h, hrest]

/-! ## Entries given twice -/

/-- Of entries that are written, those that a map keeps: in the order in which their names first
came, and under each name the last. -/
structure Kept (written kept : List (String × α)) : Prop where
  keys : kept.map Prod.fst = (written.map Prod.fst).eraseDups
  last : ∀ name, kept.lookup name = written.reverse.lookup name

theorem map_fst_put_of_mem {name : String} {value : α} {entries : List (String × α)}
    (h : name ∈ entries.map Prod.fst) :
    (put name value entries).map Prod.fst = entries.map Prod.fst := by
  induction entries with
  | nil => cases h
  | cons entry rest ih =>
      by_cases hhead : entry.1 = name
      · rw [put, if_pos hhead, List.map_cons, List.map_cons, hhead]
      · rw [put, if_neg hhead, List.map_cons, List.map_cons,
          ih ((List.mem_cons.1 h).resolve_left fun heq => hhead heq.symm)]

theorem Kept.put {written kept : List (String × α)} (h : Kept written kept) (name : String)
    (value : α) : Kept (written ++ [(name, value)]) (put name value kept) := by
  constructor
  · rw [List.map_append, List.eraseDups_append, ← h.keys]
    have hmem : name ∈ kept.map Prod.fst ↔ name ∈ written.map Prod.fst := by
      rw [h.keys, List.mem_eraseDups]
    by_cases hold : name ∈ kept.map Prod.fst
    · rw [map_fst_put_of_mem hold]
      simp [List.removeAll, hmem.1 hold]
    · have hnew : name ∉ written.map Prod.fst := fun hwritten => hold (hmem.2 hwritten)
      have hown : [name].removeAll (written.map Prod.fst) = [name] := by
        simp [List.removeAll, hnew]
      rw [put_of_fresh hold, List.map_append]
      simp only [List.map_cons, List.map_nil, hown]
      rfl
  · intro key
    rw [lookup_put, List.reverse_append, h.last key]
    by_cases hkey : key = name
    · simp [hkey]
    · rw [if_neg hkey, List.reverse_singleton, List.singleton_append, lookup_cons_of_ne hkey]

/-- A map that is made of entries keeps them. -/
theorem kept_ofList (written : List (String × α)) : Kept written (ofList written).entries := by
  induction written using List.reverseRecOn with
  | nil => exact ⟨rfl, fun _ => rfl⟩
  | append_singleton rest entry ih =>
      have hlast : (ofList (rest ++ [entry])).entries =
          OrderedMap.put entry.1 entry.2 (ofList rest).entries := by
        rw [ofList, insertAll, List.foldl_append]
        rfl
      rw [hlast]
      exact ih.put entry.1 entry.2

end DateReviver.OrderedMap
