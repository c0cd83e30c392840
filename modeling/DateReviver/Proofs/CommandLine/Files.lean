import DateReviver.CommandLine.FileTree

/-!
# What a host does to files

A run may touch files only through its host. A lawful host reads without changing anything, makes
directories without changing a file, and a text that it is to write it either stores whole, in the file
that the path names and in no other, or not at all. The host of a file tree is lawful.
-/

namespace DateReviver.CommandLine

/-- How files are seen in a state: the place that a path leads to, and the bytes of the file at a
place. -/
structure Files (σ ι : Type) where
  place? : σ → String → Option ι
  bytes? : σ → ι → Option ByteArray

namespace Files

variable {σ ι : Type} (files : Files σ ι)

/-- The file that a path names is there and is this text. -/
def Reads (s : σ) (path text : String) : Prop :=
  ∃ place, files.place? s path = some place ∧ files.bytes? s place = some text.toUTF8

/-- The same files with the same bytes. -/
def Same (s s' : σ) : Prop :=
  ∀ place, files.bytes? s' place = files.bytes? s place

/-- The file that a path names is this text now, and no other file has changed. -/
def Stores (s s' : σ) (path text : String) : Prop :=
  ∃ place, files.place? s' path = some place ∧ files.bytes? s' place = some text.toUTF8 ∧
    ∀ other, other ≠ place → files.bytes? s' other = files.bytes? s other

theorem Same.refl (s : σ) : files.Same s s :=
  fun _ => rfl

variable {files} {s s' s'' : σ}

theorem Same.trans (h : files.Same s s') (h' : files.Same s' s'') : files.Same s s'' :=
  fun place => (h' place).trans (h place)

theorem Same.stores {path text : String} (h : files.Same s s') (h' : files.Stores s' s'' path text) :
    files.Stores s s'' path text := by
  obtain ⟨place, hplace, hbytes, hothers⟩ := h'
  exact ⟨place, hplace, hbytes, fun other hne => (hothers other hne).trans (h other)⟩

theorem Reads.unique {path text text' : String} (h : files.Reads s path text)
    (h' : files.Reads s path text') : text = text' := by
  obtain ⟨place, hplace, hbytes⟩ := h
  obtain ⟨place', hplace', hbytes'⟩ := h'
  rw [hplace, Option.some.injEq] at hplace'
  rw [← hplace', hbytes, Option.some.injEq] at hbytes'
  exact String.toByteArray_inj.1 hbytes'

end Files

/-- What a run relies on. -/
structure Host.Lawful {σ ι : Type} (host : Host (StateM σ)) (files : Files σ ι) : Prop where
  workingDirectory : ∀ s, (host.workingDirectory.run s).2 = s
  exists? : ∀ s path, ((host.exists? path).run s).2 = s
  readText : ∀ s path, ((host.readText path).run s).2 = s
  reads : ∀ s path text, ((host.readText path).run s).1 = .ok text ↔ files.Reads s path text
  createDirectories : ∀ s path, files.Same s ((host.createDirectories path).run s).2
  stores : ∀ s path text, ((host.writeText path text).run s).1 = .ok () →
    files.Stores s ((host.writeText path text).run s).2 path text
  same : ∀ s path text why, ((host.writeText path text).run s).1 = .error why →
    files.Same s ((host.writeText path text).run s).2

namespace FileTree

/-- The files of a tree. -/
def observed : Files FileTree Location :=
  ⟨locate?, file?⟩

variable {t t' : FileTree} {path text why : String}

theorem fromUTF8?_eq_some_iff {bytes : ByteArray} :
    String.fromUTF8? bytes = some text ↔ bytes = text.toUTF8 := by
  unfold String.fromUTF8?
  split
  · rename_i hvalid
    rw [Option.some.injEq]
    constructor
    · intro h
      rw [← h]
      rfl
    · intro h
      subst h
      rfl
  · rename_i hinvalid
    refine iff_of_false (by simp) fun h => hinvalid ?_
    rw [h]
    exact text.isValidUTF8

theorem readText_eq_ok_iff : t.readText path = .ok text ↔ observed.Reads t path text := by
  unfold FileTree.readText Files.Reads observed
  dsimp only
  rcases t.locate? path with _ | place
  · simp
  · rcases hfile : t.file? place with _ | bytes
    · simp [hfile]
    · simp only [Option.bind_some, hfile, Option.some.injEq, exists_eq_left']
      rw [← fromUTF8?_eq_some_iff]
      cases String.fromUTF8? bytes <;> simp

theorem run_change (attempt : FileTree → Option FileTree) :
    (change why attempt).run t =
      match attempt t with
      | none => (.error why, t)
      | some t' => (.ok (), t') := by
  show (match attempt t with
    | none => (pure (.error why) : StateM FileTree (Except String Unit))
    | some t' => do
        set t'
        pure (.ok ())).run t = _
  cases attempt t <;> rfl

/-- Directories are made one in another, and nothing else is. -/
theorem files_enter {state state' : FileTree × Location} {component : String}
    (h : enter state component = some state') : state'.1.files = state.1.files := by
  obtain ⟨t, place⟩ := state
  rw [enter] at h
  split at h
  · cases h
    rfl
  · dsimp only at h
    split at h
    · cases h
    · cases h
      rfl

theorem files_foldlM_enter {components : List String} {state state' : FileTree × Location}
    (h : components.foldlM enter state = some state') : state'.1.files = state.1.files := by
  induction components generalizing state with
  | nil =>
      cases h
      rfl
  | cons component rest ih =>
      rw [List.foldlM_cons] at h
      obtain ⟨middle, hmiddle, hrest⟩ := Option.bind_eq_some_iff.1 h
      exact (ih hrest).trans (files_enter hmiddle)

theorem files_createDirectories? (h : t.createDirectories? path = some t') : t'.files = t.files := by
  unfold createDirectories? at h
  obtain ⟨components, _, h⟩ := Option.bind_eq_some_iff.1 h
  obtain ⟨made, hmade, h⟩ := Option.bind_eq_some_iff.1 h
  cases h
  exact files_foldlM_enter hmade

theorem lookup_filter_of_ne {entries : List (Location × ByteArray)} {place other : Location}
    (h : other ≠ place) :
    (entries.filter fun entry => entry.1 != place).lookup other = entries.lookup other := by
  induction entries with
  | nil => rfl
  | cons entry rest ih =>
      obtain ⟨own, bytes⟩ := entry
      by_cases hown : own = place
      · have hne : (other == own) = false := by simpa [hown] using h
        rw [List.filter_cons_of_neg (by simp [hown]), ih, List.lookup_cons, hne]
      · rw [List.filter_cons_of_pos (by simp [hown]), List.lookup_cons, List.lookup_cons, ih]

theorem file?_store_self (place : Location) (bytes : ByteArray) :
    (t.store place bytes).file? place = some bytes := by
  have hnone : (t.files.filter fun entry => entry.1 != place).lookup place = none := by
    rw [List.lookup_eq_none_iff]
    intro entry hmem
    have hne := (List.mem_filter.1 hmem).2
    simp only [bne_iff_ne, ne_eq] at hne
    simpa using Ne.symm hne
  show (List.append _ _).lookup place = _
  rw [List.append_eq, List.lookup_append, hnone]
  simp

theorem file?_store_of_ne {place other : Location} (bytes : ByteArray) (h : other ≠ place) :
    (t.store place bytes).file? other = t.file? other := by
  have hne : (other == place) = false := by simpa using h
  show (List.append _ _).lookup other = t.files.lookup other
  rw [List.append_eq, List.lookup_append, lookup_filter_of_ne h, List.lookup_cons, hne]
  simp

theorem stores_of_writeText? (h : t.writeText? path text = some t') :
    observed.Stores t t' path text := by
  unfold writeText? at h
  split at h
  · cases h
  · rename_i place hplace
    split at h
    · cases h
    · cases h
      exact ⟨place, hplace, file?_store_self place _, fun other hne => file?_store_of_ne _ hne⟩

/-- A tree changes as a host may change it. -/
theorem host_lawful : FileTree.host.Lawful observed := by
  constructor
  case workingDirectory => exact fun _ => rfl
  case exists? => exact fun _ _ => rfl
  case readText => exact fun _ _ => rfl
  case reads => exact fun t path text => readText_eq_ok_iff
  case createDirectories =>
    intro t path place
    show file? ((change _ _).run t).2 place = t.file? place
    rw [run_change]
    cases hmade : t.createDirectories? path with
    | none => rfl
    | some made =>
        rw [file?, file?, ← files_createDirectories? hmade]
  case stores =>
    intro t path text
    show ((change _ _).run t).1 = _ → observed.Stores t ((change _ _).run t).2 path text
    rw [run_change]
    cases hwritten : t.writeText? path text with
    | none =>
        intro h
        cases h
    | some written => exact fun _ => stores_of_writeText? hwritten
  case same =>
    intro t path text why
    show ((change _ _).run t).1 = _ → observed.Same t ((change _ _).run t).2
    rw [run_change]
    cases t.writeText? path text with
    | none => exact fun _ => .refl _ t
    | some written =>
        intro h
        cases h

end FileTree

end DateReviver.CommandLine
