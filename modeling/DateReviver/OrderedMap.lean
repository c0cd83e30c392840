/-!
# Maps in order of first insertion

A finite map from names to values that remembers the order in which its names first came.
Documents are full of such tables: the order of the entries is the order of the output, and an
entry given twice keeps its first place and its last value.
-/

namespace DateReviver

/-- Entries under distinct names, in order of first insertion. -/
structure OrderedMap (α : Type) where
  entries : List (String × α)
  nodup : (entries.map Prod.fst).Nodup

namespace OrderedMap

variable {α : Type}

def empty : OrderedMap α :=
  ⟨[], List.nodup_nil⟩

def keys (m : OrderedMap α) : List String :=
  m.entries.map Prod.fst

def size (m : OrderedMap α) : Nat :=
  m.entries.length

def get? (m : OrderedMap α) (name : String) : Option α :=
  m.entries.lookup name

def contains (m : OrderedMap α) (name : String) : Bool :=
  m.keys.contains name

theorem mem_keys_of_get? {m : OrderedMap α} {name : String} {value : α}
    (h : m.get? name = some value) : name ∈ m.keys := by
  obtain ⟨before, after, hentries, _⟩ := List.lookup_eq_some_iff.1 h
  simp [keys, hentries]

/-- The number of names that are not in a list: what a walk over the map that never takes a name
twice has left to do. -/
def countOutside (m : OrderedMap α) (known : List String) : Nat :=
  m.keys.countP fun name => !known.contains name

theorem countOutside_append_le (m : OrderedMap α) (known more : List String) :
    m.countOutside (known ++ more) ≤ m.countOutside known := by
  apply List.countP_mono_left
  intro name _ h
  simp only [List.contains_eq_mem, List.mem_append, Bool.not_eq_true', decide_eq_false_iff_not,
    not_or] at h ⊢
  exact h.1

theorem countP_lt_countP {names : List String} {p q : String → Bool} {name : String}
    (hle : ∀ n, p n = true → q n = true) (hmem : name ∈ names)
    (hp : p name = false) (hq : q name = true) :
    names.countP p < names.countP q := by
  induction names with
  | nil => exact absurd hmem (by simp)
  | cons head rest ih =>
      have hrest : rest.countP p ≤ rest.countP q :=
        List.countP_mono_left fun n _ => hle n
      rcases List.mem_cons.1 hmem with rfl | htail
      · simp only [List.countP_cons, hp, hq, if_true]
        simp
        omega
      · have hlt := ih htail
        by_cases hhead : p head = true
        · simp [hhead, hle head hhead, hlt]
        · by_cases hqhead : q head = true
          · simp [hhead, hqhead]
            omega
          · simp [hhead, hqhead, hlt]

theorem countOutside_cons_lt {m : OrderedMap α} {known : List String} {name : String}
    (hmem : name ∈ m.keys) (hnew : known.contains name = false) :
    m.countOutside (name :: known) < m.countOutside known := by
  refine countP_lt_countP ?_ hmem (by simp) (by simpa using hnew)
  intro n h
  simp only [List.contains_eq_mem, List.mem_cons, Bool.not_eq_true', decide_eq_false_iff_not,
    not_or] at h ⊢
  exact h.2

/-- Put a value in the place of its name, or at the end under a new name. -/
def put (name : String) (value : α) : List (String × α) → List (String × α)
  | [] => [(name, value)]
  | entry :: rest =>
      if entry.1 = name then (name, value) :: rest
      else entry :: put name value rest

theorem mem_keys_put {name : String} {value : α} {entries : List (String × α)} {key : String} :
    key ∈ (put name value entries).map Prod.fst ↔ key = name ∨ key ∈ entries.map Prod.fst := by
  induction entries with
  | nil => simp [put]
  | cons entry rest ih =>
      by_cases h : entry.1 = name
      · subst h
        simp [put]
      · simp only [put, h, if_false, List.map_cons, List.mem_cons, ih]
        exact or_left_comm

theorem nodup_put {name : String} {value : α} {entries : List (String × α)}
    (h : (entries.map Prod.fst).Nodup) :
    ((put name value entries).map Prod.fst).Nodup := by
  induction entries with
  | nil => simp [put]
  | cons entry rest ih =>
      simp only [List.map_cons, List.nodup_cons] at h
      by_cases hname : entry.1 = name
      · subst hname
        simpa [put] using h
      · have hput : put name value (entry :: rest) = entry :: put name value rest := by
          simp [put, hname]
        rw [hput, List.map_cons, List.nodup_cons, mem_keys_put, not_or]
        exact ⟨⟨hname, h.1⟩, ih h.2⟩

/-- Insert a value: an old name keeps its place and takes the new value. -/
def insert (m : OrderedMap α) (name : String) (value : α) : OrderedMap α :=
  ⟨put name value m.entries, nodup_put m.nodup⟩

def insertAll (m : OrderedMap α) (entries : List (String × α)) : OrderedMap α :=
  entries.foldl (fun m entry => m.insert entry.1 entry.2) m

def ofList (entries : List (String × α)) : OrderedMap α :=
  empty.insertAll entries

end OrderedMap

end DateReviver
