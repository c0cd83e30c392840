import DateReviver.CommandLine.Run
import DateReviver.Proofs.CommandLine.Files
import DateReviver.Proofs.Generation

/-!
# What a run leaves behind

A run that generates either delivers the code that the library makes of the document under the
configuration that is in force, into the output file or to the standard output, or it ends with a message
and leaves every file as it was. All that comes before the delivery only reads, so the state is the first
one until the code is there.
-/

namespace DateReviver

open DateReviver.OpenApi

/-- The code for a document that is given as a text. -/
def generateText (format : DocumentFormat) (options : Options) (text : String) :
    Except GenerationError String := do
  let doc ← Document.parse format text
  let output ← DateReviver.generate options doc
  return output.render

theorem generateText_eq_ok_iff {format : DocumentFormat} {options : Options} {text code : String} :
    generateText format options text = .ok code ↔ ∃ doc, Document.parse format text = .ok doc ∧
      ∃ output, DateReviver.generate options doc = .ok output ∧ output.render = code := by
  unfold generateText
  cases Document.parse format text with
  | error e => simp [bind, Except.bind]
  | ok doc =>
      cases hrun : DateReviver.generate options doc with
      | error e => simp [bind, Except.bind, hrun]
      | ok output => simp [bind, Except.bind, pure, Except.pure, hrun]

namespace CommandLine

/-! ## The configuration in force -/

/-- A configuration as it is taken from a file: its relative paths lead from the directory of the file. -/
structure TakenFrom (path : String) (own c : Config) : Prop where
  schemaFile : c.schemaFile = own.schemaFile.map (Path.join ((Path.parent? path).getD ""))
  outputFile : c.outputFile = own.outputFile.map (Path.join ((Path.parent? path).getD ""))
  types : c.types = own.types
  allTypes : c.allTypes = own.allTypes
  includeOperations : c.includeOperations = own.includeOperations
  requireAllProperties : c.requireAllProperties = own.requireAllProperties

/-- A configuration with what the flags say in the place of what it says, or added to it. -/
structure Flags.Overrides (f : Flags) (c o : Config) : Prop where
  schemaFile : o.schemaFile = if f.schemaFile.isSome then f.schemaFile else c.schemaFile
  outputFile : o.outputFile = if f.outputFile.isSome then f.outputFile else c.outputFile
  types : o.types = if f.types = [] then c.types else f.types
  allTypes : o.allTypes = true ↔ c.allTypes = true ∨ f.allTypes = true
  requireAllProperties :
    o.requireAllProperties = true ↔ c.requireAllProperties = true ∨ f.requireAllProperties = true
  includeOperations : o.includeOperations = true ↔ c.includeOperations = true ∧ f.noOperations = false

theorem join_empty (path : String) : Path.join "" path = path := by
  have hempty : "".isEmpty = true := rfl
  rw [Path.join, hempty, Bool.or_true, if_pos rfl]

theorem eq_iff_fields {c o : Config} : c = o ↔ c.schemaFile = o.schemaFile ∧
    c.outputFile = o.outputFile ∧ c.types = o.types ∧ c.allTypes = o.allTypes ∧
      c.includeOperations = o.includeOperations ∧
        c.requireAllProperties = o.requireAllProperties := by
  cases c
  cases o
  simp only [Config.mk.injEq]

theorem takenFrom_iff {path : String} {own c : Config} :
    TakenFrom path own c ↔ c = own.relativeTo path := by
  have hfields : own.relativeTo path =
      { own with
        schemaFile := own.schemaFile.map (Path.join ((Path.parent? path).getD ""))
        outputFile := own.outputFile.map (Path.join ((Path.parent? path).getD "")) } := by
    have hjoin : Path.join "" = id := funext join_empty
    unfold Config.relativeTo
    cases Path.parent? path with
    | none => simp [hjoin]
    | some directory => rfl
  rw [hfields, eq_iff_fields]
  constructor
  · intro ⟨hschema, houtput, htypes, hall, hoperations, hrequire⟩
    exact ⟨hschema, houtput, htypes, hall, hoperations, hrequire⟩
  · intro ⟨hschema, houtput, htypes, hall, hoperations, hrequire⟩
    exact ⟨hschema, houtput, htypes, hall, hoperations, hrequire⟩

theorem Flags.overrides_iff {f : Flags} {c o : Config} : f.Overrides c o ↔ o = f.override c := by
  have hor (own other : Option String) : own.or other = if own.isSome then own else other := by
    cases own <;> rfl
  rw [eq_iff_fields]
  simp only [Flags.override, hor, List.isEmpty_iff]
  constructor
  · intro ⟨hschema, houtput, htypes, hall, hrequire, hoperations⟩
    refine ⟨hschema, houtput, htypes, ?_, ?_, ?_⟩
    · rw [Bool.eq_iff_iff, hall, Bool.or_eq_true]
    · rw [Bool.eq_iff_iff, hoperations, Bool.and_eq_true, Bool.not_eq_true']
    · rw [Bool.eq_iff_iff, hrequire, Bool.or_eq_true]
  · intro ⟨hschema, houtput, htypes, hall, hoperations, hrequire⟩
    refine ⟨hschema, houtput, htypes, ?_, ?_, ?_⟩
    · rw [hall, Bool.or_eq_true]
    · rw [hrequire, Bool.or_eq_true]
    · rw [hoperations, Bool.and_eq_true, Bool.not_eq_true']

/-- The configuration file that is looked for in a directory where none is given. -/
def defaultConfigFile (directory : String) : String :=
  Path.join directory defaultConfigName

section Contract

variable {σ ι : Type} (host : Host (StateM σ)) (files : Files σ ι)

/-- A configuration file can be read, and says this. -/
def Loads (s : σ) (path : String) (c : Config) : Prop :=
  ∃ text own, files.Reads s path text ∧ Config.parse? text = some own ∧ TakenFrom path own c

/-- What the working directory says: its configuration file or, if that is not there, the defaults. It
says nothing if it is not known itself. -/
inductive Discovers (s : σ) : Config → Prop
  | found {directory : String} {c : Config}
      (hdirectory : (host.workingDirectory.run s).1 = .ok directory)
      (hexists : ((host.exists? (defaultConfigFile directory)).run s).1 = true)
      (h : Loads files s (defaultConfigFile directory) c) : Discovers s c
  | defaults {directory : String} (hdirectory : (host.workingDirectory.run s).1 = .ok directory)
      (habsent : ((host.exists? (defaultConfigFile directory)).run s).1 = false) : Discovers s {}

/-- The configuration in force: that of the file that is given, or else that of the working directory,
under the flags. -/
def Configures (s : σ) (f : Flags) (o : Config) : Prop :=
  ∃ c, f.Overrides c o ∧
    match f.configFile with
    | some path => Loads files s path c
    | none => Discovers host files s c

/-- What a run is to deliver, and the output file if there is one. -/
def Due (s : σ) (f : Flags) (target : Option String) (code : String) : Prop :=
  ∃ config schemaFile text, Configures host files s f config ∧
    config.schemaFile = some schemaFile ∧ files.Reads s schemaFile text ∧
    generateText (.ofPath schemaFile) config.options text = .ok code ∧ config.outputFile = target

/-- The state in which a file is written: its directory has been made, unless that is the current one. -/
inductive Prepares (s : σ) (path : String) : σ → Prop
  | here (h : (Path.parent? path).getD "" = "") : Prepares s path s
  | made {directory : String} (h : Path.parent? path = some directory) (hne : directory ≠ "")
      (hmade : ((host.createDirectories directory).run s).1 = .ok ()) :
      Prepares s path ((host.createDirectories directory).run s).2

/-- A text can be written as a file. -/
def Writable (s : σ) (path text : String) : Prop :=
  ∃ s', Prepares host s path s' ∧ ((host.writeText path text).run s').1 = .ok ()

/-- The output file can be written, if there is one. -/
def Deliverable (s : σ) (target : Option String) (code : String) : Prop :=
  ∀ path, target = some path → Writable host s path code

/-- Code is delivered: into the output file, and into no other, or to the standard output. -/
def Delivers (s s' : σ) (stdout : String) : (target : Option String) → (code : String) → Prop
  | some path, code => stdout = "" ∧ files.Stores s s' path code
  | none, code => stdout = code ∧ files.Same s s'

end Contract

/-! ## Steps of a run -/

section Steps

variable {σ ι α β : Type}

/-- A step of a run that starts in a state comes to such a result and such a state, whatever notes were
taken before. -/
def Run.Yields (x : Run (StateM σ) α) (s : σ) (P : Except String α → σ → Prop) : Prop :=
  ∀ notes, P ((x.run.run notes).run s).1.1 ((x.run.run notes).run s).2

namespace Run

variable {x : Run (StateM σ) α} {s : σ} {P Q : Except String α → σ → Prop}

theorem Yields.mono (h : x.Yields s P) (himp : ∀ result s', P result s' → Q result s') :
    x.Yields s Q :=
  fun notes => himp _ _ (h notes)

theorem Yields.pure {a : α} (h : P (.ok a) s) : (pure a : Run (StateM σ) α).Yields s P :=
  fun _ => h

theorem Yields.throw {message : String} (h : P (.error message) s) :
    (throw message : Run (StateM σ) α).Yields s P :=
  fun _ => h

theorem run_bind (f : α → Run (StateM σ) β) (notes : List Note) :
    ((x >>= f).run.run notes).run s =
      match (x.run.run notes).run s with
      | ((.ok a, notes'), s') => ((f a).run.run notes').run s'
      | ((.error message, notes'), s') => ((.error message, notes'), s') := by
  show ((ExceptT.bindCont f ((x.run.run notes).run s).1.1) ((x.run.run notes).run s).1.2)
    ((x.run.run notes).run s).2 = _
  rcases (x.run.run notes).run s with ⟨⟨result, notes'⟩, s'⟩
  cases result <;> rfl

theorem Yields.bind {R : Except String β → σ → Prop} {f : α → Run (StateM σ) β}
    (hx : x.Yields s P) (herror : ∀ message s', P (.error message) s' → R (.error message) s')
    (hok : ∀ a s', P (.ok a) s' → (f a).Yields s' R) : (x >>= f).Yields s R := by
  intro notes
  have hfirst := hx notes
  rw [run_bind]
  rcases hrun : (x.run.run notes).run s with ⟨⟨result, notes'⟩, s'⟩
  rw [hrun] at hfirst
  cases result with
  | error message => exact herror message s' hfirst
  | ok a => exact hok a s' hfirst notes'

theorem Yields.note {notes : List Note} {P : Except String Unit → σ → Prop} (h : P (.ok ()) s) :
    (note notes : Run (StateM σ) Unit).Yields s P :=
  fun _ => h

theorem Yields.note_bind {notes : List Note} {f : Unit → Run (StateM σ) α} (h : (f ()).Yields s P) :
    (Run.note notes >>= f).Yields s P := by
  have hnote : (Run.note notes : Run (StateM σ) Unit).Yields s fun result s' =>
      result = .ok () ∧ s' = s := Yields.note ⟨rfl, rfl⟩
  refine hnote.bind (fun message s' hend => ?_) fun _ s' hend => ?_
  · cases hend.1
  · rw [hend.2]
    exact h

theorem Yields.ask {question : StateM σ α} (h : P (.ok (question.run s).1) (question.run s).2) :
    (ask question).Yields s P :=
  fun _ => h

theorem Yields.attempt {what : String} {question : StateM σ (Except String α)}
    (hok : ∀ a, (question.run s).1 = .ok a → P (.ok a) (question.run s).2)
    (herror : ∀ why, (question.run s).1 = .error why →
      P (.error (what ++ ": " ++ why)) (question.run s).2) :
    (attempt what question).Yields s P := by
  have hask : (Run.ask question).Yields s fun result s' =>
      result = .ok (question.run s).1 ∧ s' = (question.run s).2 := .ask ⟨rfl, rfl⟩
  refine hask.bind (fun message s' h => ?_) fun answer s' h => ?_
  · cases h.1
  · obtain ⟨hanswer, rfl⟩ := h
    cases hanswer
    split
    · rename_i a ha
      exact .pure (hok a ha)
    · rename_i why hwhy
      exact .throw (herror why hwhy)

theorem attempt_yields (what : String) (question : StateM σ (Except String α)) :
    (attempt what question).Yields s fun result s' =>
      s' = (question.run s).2 ∧ ∀ a, result = .ok a ↔ (question.run s).1 = .ok a := by
  refine .attempt (fun a hok => ⟨rfl, fun other => ?_⟩) fun why hwhy => ⟨rfl, fun other => ?_⟩
  · rw [hok]
  · rw [hwhy]
    exact iff_of_false (fun habsurd => by cases habsurd) fun habsurd => by cases habsurd

/-- A step changes nothing, and comes to the results that are wanted and to no others. If there are none it
fails. -/
def Reading (x : Run (StateM σ) α) (s : σ) (wanted : α → Prop) : Prop :=
  x.Yields s fun result s' => s' = s ∧ ∀ a, result = .ok a ↔ wanted a

variable {wanted : α → Prop}

theorem Reading.pure {a : α} (h : ∀ b, wanted b ↔ b = a) :
    (pure a : Run (StateM σ) α).Reading s wanted := by
  refine Yields.pure ⟨rfl, fun b => ?_⟩
  rw [Except.ok.injEq, h]
  exact eq_comm

theorem Reading.throw {message : String} (h : ∀ a, ¬ wanted a) :
    (throw message : Run (StateM σ) α).Reading s wanted := by
  refine Yields.throw ⟨rfl, fun a => ?_⟩
  exact iff_of_false (fun habsurd => by cases habsurd) (h a)

/-- A step that only reads is followed by another. -/
theorem Reading.bind_yields {f : α → Run (StateM σ) β} {R : Except String β → σ → Prop}
    (hx : x.Reading s wanted) (hnone : (∀ a, ¬ wanted a) → ∀ message, R (.error message) s)
    (hf : ∀ a, wanted a → (f a).Yields s R) : (x >>= f).Yields s R := by
  refine Yields.bind hx (fun message s' h => ?_) fun a s' h => ?_
  · obtain ⟨rfl, hwanted⟩ := h
    refine hnone (fun a ha => ?_) message
    cases (hwanted a).2 ha
  · obtain ⟨rfl, hwanted⟩ := h
    exact hf a ((hwanted a).1 rfl)

theorem Reading.congr {goal : α → Prop} (hx : x.Reading s wanted) (h : ∀ a, wanted a ↔ goal a) :
    x.Reading s goal :=
  hx.mono fun _ _ hresult => ⟨hresult.1, fun a => (hresult.2 a).trans (h a)⟩

theorem Reading.bind {f : α → Run (StateM σ) β} {goal : β → Prop} (hx : x.Reading s wanted)
    (hnone : (∀ a, ¬ wanted a) → ∀ b, ¬ goal b) (hf : ∀ a, wanted a → (f a).Reading s goal) :
    (x >>= f).Reading s goal := by
  refine hx.bind_yields (fun h message => ⟨rfl, fun b => ?_⟩) hf
  exact iff_of_false (fun habsurd => by cases habsurd) (hnone h b)

theorem Reading.note_bind {notes : List Note} {f : Unit → Run (StateM σ) α}
    (h : (f ()).Reading s wanted) : (note notes >>= f).Reading s wanted :=
  Yields.note_bind h

end Run

end Steps

/-! ## What each part of a run comes to -/

open Run

section Parts

variable {σ ι : Type} {host : Host (StateM σ)} {files : Files σ ι} {s : σ}

theorem Loads.unique {path : String} {c c' : Config} (h : Loads files s path c)
    (h' : Loads files s path c') : c = c' := by
  obtain ⟨text, own, hreads, hparse, htaken⟩ := h
  obtain ⟨text', own', hreads', hparse', htaken'⟩ := h'
  rw [← hreads.unique hreads', hparse, Option.some.injEq] at hparse'
  rw [takenFrom_iff] at htaken htaken'
  rw [htaken, htaken', hparse']

theorem discovers_iff_found {directory : String}
    (hdirectory : (host.workingDirectory.run s).1 = .ok directory)
    (hexists : ((host.exists? (defaultConfigFile directory)).run s).1 = true) {c : Config} :
    Discovers host files s c ↔ Loads files s (defaultConfigFile directory) c := by
  refine ⟨fun h => ?_, .found hdirectory hexists⟩
  cases h with
  | found hother _ hloads =>
      rw [hdirectory, Except.ok.injEq] at hother
      rwa [hother]
  | defaults hother habsent =>
      rw [hdirectory, Except.ok.injEq] at hother
      rw [← hother, hexists] at habsent
      cases habsent

theorem discovers_iff_defaults {directory : String}
    (hdirectory : (host.workingDirectory.run s).1 = .ok directory)
    (habsent : ((host.exists? (defaultConfigFile directory)).run s).1 = false) {c : Config} :
    Discovers host files s c ↔ c = {} := by
  constructor
  · intro h
    cases h with
    | found hother hexists =>
        rw [hdirectory, Except.ok.injEq] at hother
        rw [← hother, habsent] at hexists
        cases hexists
    | defaults => rfl
  · rintro rfl
    exact .defaults hdirectory habsent

theorem Discovers.unique {c c' : Config} (h : Discovers host files s c)
    (h' : Discovers host files s c') : c = c' := by
  cases h with
  | found hdirectory hexists hloads =>
      exact hloads.unique ((discovers_iff_found hdirectory hexists).1 h')
  | defaults hdirectory habsent => exact ((discovers_iff_defaults hdirectory habsent).1 h').symm

/-- The flags are laid over the configuration that was read. -/
theorem Run.Reading.override {x : Run (StateM σ) Config} {base : Config → Prop}
    (hx : x.Reading s base) (hunique : ∀ c c', base c → base c' → c = c') (f : Flags) :
    (x >>= fun c => Pure.pure (f.override c)).Reading s fun o => ∃ c, f.Overrides c o ∧ base c := by
  refine hx.bind (fun hnone o ho => ?_) fun c hc => .pure fun o => ?_
  · obtain ⟨c, _, hc⟩ := ho
    exact hnone c hc
  · simp only [Flags.overrides_iff]
    constructor
    · intro ⟨c', ho, hc'⟩
      rw [ho, hunique c' c hc' hc]
    · intro ho
      exact ⟨c, ho, hc⟩

theorem Configures.unique {f : Flags} {o o' : Config} (h : Configures host files s f o)
    (h' : Configures host files s f o') : o = o' := by
  obtain ⟨c, hover, hc⟩ := h
  obtain ⟨c', hover', hc'⟩ := h'
  have hsame : c = c' := by
    cases hpath : f.configFile with
    | none =>
        rw [hpath] at hc hc'
        exact Discovers.unique hc hc'
    | some path =>
        rw [hpath] at hc hc'
        exact Loads.unique hc hc'
  rw [Flags.overrides_iff] at hover hover'
  rw [hover, hover', hsame]

theorem due_iff {f : Flags} {config : Config} {schemaFile text code : String}
    {target : Option String} (hconfig : Configures host files s f config)
    (hschema : config.schemaFile = some schemaFile) (hreads : files.Reads s schemaFile text) :
    Due host files s f target code ↔
      generateText (.ofPath schemaFile) config.options text = .ok code ∧
        config.outputFile = target := by
  constructor
  · intro ⟨config', schemaFile', text', hconfig', hschema', hreads', hcode, htarget⟩
    rw [hconfig'.unique hconfig] at hschema' hcode htarget
    rw [hschema, Option.some.injEq] at hschema'
    rw [← hschema'] at hreads' hcode
    rw [hreads'.unique hreads] at hcode
    exact ⟨hcode, htarget⟩
  · intro ⟨hcode, htarget⟩
    exact ⟨config, schemaFile, text, hconfig, hschema, hreads, hcode, htarget⟩

theorem Due.unique {f : Flags} {target target' : Option String} {code code' : String}
    (h : Due host files s f target code) (h' : Due host files s f target' code') :
    target = target' ∧ code = code' := by
  obtain ⟨config, schemaFile, text, hconfig, hschema, hreads, hcode, htarget⟩ := h
  obtain ⟨hcode', htarget'⟩ := (due_iff hconfig hschema hreads).1 h'
  rw [hcode, Except.ok.injEq] at hcode'
  exact ⟨htarget.symm.trans htarget', hcode'⟩

theorem prepares_iff_here {path : String} (h : (Path.parent? path).getD "" = "") {s' : σ} :
    Prepares host s path s' ↔ s' = s := by
  constructor
  · intro hprepares
    cases hprepares with
    | here => rfl
    | made hparent hne =>
        rw [hparent] at h
        exact absurd h hne
  · rintro rfl
    exact .here h

theorem prepares_iff_made {path directory : String} (hparent : Path.parent? path = some directory)
    (hne : directory ≠ "") {s' : σ} : Prepares host s path s' ↔
      ((host.createDirectories directory).run s).1 = .ok () ∧
        s' = ((host.createDirectories directory).run s).2 := by
  constructor
  · intro hprepares
    cases hprepares with
    | here hempty =>
        rw [hparent] at hempty
        exact absurd hempty hne
    | made hother _ hmade =>
        rw [hparent, Option.some.injEq] at hother
        subst hother
        exact ⟨hmade, rfl⟩
  · rintro ⟨hmade, rfl⟩
    exact .made hparent hne hmade

theorem ask_reading {α : Type} {question : StateM σ α} (h : (question.run s).2 = s) :
    (ask question).Reading s (· = (question.run s).1) := by
  refine Yields.ask ⟨h, fun a => ?_⟩
  rw [Except.ok.injEq]
  exact eq_comm

theorem attempt_reading {α : Type} (what : String) {question : StateM σ (Except String α)}
    (h : (question.run s).2 = s) :
    (attempt what question).Reading s fun a => (question.run s).1 = .ok a :=
  (attempt_yields what question).mono fun _ _ hend => ⟨hend.1.trans h, hend.2⟩

theorem generateOutput_reading (options : Options) (doc : Document) :
    (generateOutput options doc : Run (StateM σ) Output).Reading s fun output =>
      DateReviver.generate options doc = .ok output := by
  have hrun : DateReviver.generate options doc = ((generation options doc).run.run .empty).1 := rfl
  rw [hrun]
  unfold generateOutput
  generalize (generation options doc).run.run .empty = outcome
  obtain ⟨result, registry⟩ := outcome
  refine .note_bind ?_
  cases result with
  | ok output =>
      refine .pure fun other => ?_
      rw [Except.ok.injEq]
      exact eq_comm
  | error e =>
      refine .throw fun output habsurd => ?_
      cases habsurd

variable (hlawful : host.Lawful files)

include hlawful

theorem readText_reading (what path : String) :
    (attempt what (host.readText path)).Reading s (files.Reads s path) :=
  (attempt_reading what (hlawful.readText s path)).congr (hlawful.reads s path)

theorem loadConfig_reading (path : String) :
    (loadConfig host path).Reading s (Loads files s path) := by
  refine (readText_reading hlawful _ path).bind (fun hnone c hloads => ?_) fun text hread => ?_
  · obtain ⟨text, _, hreads, _⟩ := hloads
    exact hnone text hreads
  · split
    · rename_i hnone
      refine .throw fun c hloads => ?_
      obtain ⟨text', own, hreads', hparse, _⟩ := hloads
      rw [← hread.unique hreads', hnone] at hparse
      cases hparse
    · rename_i own hparse
      have hloads : Loads files s path (own.relativeTo path) :=
        ⟨text, own, hread, hparse, takenFrom_iff.2 rfl⟩
      refine .note_bind (.pure fun c => ?_)
      constructor
      · intro hother
        exact hother.unique hloads
      · intro heq
        rw [heq]
        exact hloads

theorem discoverConfig_reading : (discoverConfig host).Reading s (Discovers host files s) := by
  refine (attempt_reading _ (hlawful.workingDirectory s)).bind (fun hnone c h => ?_) ?_
  · cases h with
    | found hdirectory => exact hnone _ hdirectory
    | defaults hdirectory => exact hnone _ hdirectory
  intro directory hdirectory
  refine (ask_reading (hlawful.exists? s _)).bind (fun hnone => absurd rfl (hnone _)) ?_
  intro found hfound
  cases found with
  | true =>
      exact (loadConfig_reading hlawful _).congr fun c =>
        (discovers_iff_found hdirectory hfound.symm).symm
  | false => exact .note_bind (.pure fun c => discovers_iff_defaults hdirectory hfound.symm)

theorem resolveConfig_reading (f : Flags) :
    (resolveConfig host f).Reading s (Configures host files s f) := by
  unfold resolveConfig Configures
  cases f.configFile with
  | none =>
      exact (discoverConfig_reading hlawful).override (fun _ _ h h' => h.unique h') f
  | some path =>
      exact (loadConfig_reading hlawful path).override (fun _ _ h h' => h.unique h') f

theorem writeText_yields {s' : σ} {path : String} (code : String)
    (hprepares : ∀ s'', Prepares host s path s'' ↔ s'' = s') (hsame : files.Same s s') :
    (attempt ("Failed to write " ++ path) (host.writeText path code)).Yields s' fun result s'' =>
      match result with
      | .ok _ => Writable host s path code ∧ files.Stores s s'' path code
      | .error _ => ¬ Writable host s path code ∧ files.Same s s'' := by
  refine .attempt (fun _ hok => ?_) fun why hwhy => ?_
  · exact ⟨⟨s', (hprepares s').2 rfl, hok⟩, hsame.stores (hlawful.stores s' path code hok)⟩
  · refine ⟨fun hwritable => ?_, hsame.trans (hlawful.same s' path code why hwhy)⟩
    obtain ⟨s'', hother, hok⟩ := hwritable
    rw [(hprepares s'').1 hother, hwhy] at hok
    cases hok

theorem writeOutput_yields (path code : String) :
    (writeOutput host path code).Yields s fun result s' =>
      match result with
      | .ok _ => Writable host s path code ∧ files.Stores s s' path code
      | .error _ => ¬ Writable host s path code ∧ files.Same s s' := by
  have hhere (hempty : (Path.parent? path).getD "" = "") :=
    writeText_yields hlawful code (fun _ => prepares_iff_here hempty) (.refl files s)
  unfold writeOutput
  split
  · rename_i hparent
    exact hhere (by rw [hparent]; rfl)
  · rename_i directory hparent
    split
    · rename_i hempty
      exact hhere (by rw [hparent]; exact String.isEmpty_iff.1 hempty)
    · rename_i hempty
      have hne : directory ≠ "" := fun heq => hempty (String.isEmpty_iff.2 heq)
      refine (attempt_yields _ _).bind (fun message s' h => ?_) fun _ s' h => ?_
      · obtain ⟨rfl, hresult⟩ := h
        refine ⟨fun hwritable => ?_, hlawful.createDirectories s directory⟩
        obtain ⟨s'', hprepares, _⟩ := hwritable
        cases (hresult ()).2 ((prepares_iff_made hparent hne).1 hprepares).1
      · obtain ⟨rfl, hresult⟩ := h
        refine writeText_yields hlawful code (fun s'' => ?_) (hlawful.createDirectories s directory)
        rw [prepares_iff_made hparent hne]
        exact and_iff_right ((hresult ()).1 rfl)

theorem generate_yields (f : Flags) :
    (Run.generate host f).Yields s fun result s' =>
      match result with
      | .ok stdout => ∃ target code, Due host files s f target code ∧
          Deliverable host s target code ∧ Delivers files s s' stdout target code
      | .error _ => files.Same s s' ∧
          ∀ target code, Due host files s f target code → ¬ Deliverable host s target code := by
  refine (resolveConfig_reading hlawful f).bind_yields (fun hnone _ => ⟨.refl files s, ?_⟩) ?_
  · intro target code ⟨config, _, _, hconfig, _⟩
    exact absurd hconfig (hnone config)
  intro config hconfig
  split
  · rename_i hschema
    refine .throw ⟨.refl files s, fun target code hdue => ?_⟩
    obtain ⟨config', schemaFile, _, hconfig', hschema', _⟩ := hdue
    rw [hconfig'.unique hconfig, hschema] at hschema'
    cases hschema'
  · rename_i schemaFile hschema
    refine (readText_reading hlawful _ _).bind_yields (fun hnone _ => ⟨.refl files s, ?_⟩) ?_
    · intro target code ⟨config', schemaFile', text, hconfig', hschema', hreads, _⟩
      rw [hconfig'.unique hconfig, hschema, Option.some.injEq] at hschema'
      exact absurd (hschema' ▸ hreads) (hnone text)
    intro text hreads
    refine .note_bind ?_
    split
    · rename_i e hparse
      refine .throw ⟨.refl files s, fun target code hdue => ?_⟩
      obtain ⟨hcode, _⟩ := (due_iff hconfig hschema hreads).1 hdue
      rw [generateText_eq_ok_iff, hparse] at hcode
      obtain ⟨_, habsurd, _⟩ := hcode
      cases habsurd
    · rename_i doc hparse
      have hcode {code : String} :
          generateText (.ofPath schemaFile) config.options text = .ok code ↔
            ∃ output, DateReviver.generate config.options doc = .ok output ∧
              output.render = code := by
        rw [generateText_eq_ok_iff, hparse]
        simp only [Except.ok.injEq, exists_eq_left']
      refine (generateOutput_reading config.options doc).bind_yields (fun hnone _ => ?_) ?_
      · refine ⟨.refl files s, fun target code hdue => ?_⟩
        obtain ⟨output, houtput, _⟩ := hcode.1 ((due_iff hconfig hschema hreads).1 hdue).1
        exact absurd houtput (hnone output)
      intro output houtput
      have hdue (target : Option String) (htarget : config.outputFile = target) :
          Due host files s f target output.render :=
        (due_iff hconfig hschema hreads).2 ⟨hcode.2 ⟨output, houtput, rfl⟩, htarget⟩
      split
      · rename_i htarget
        refine .pure ⟨none, output.render, hdue none htarget, ?_, rfl, .refl files s⟩
        intro path habsurd
        cases habsurd
      · rename_i path htarget
        refine (writeOutput_yields hlawful path output.render).bind (fun message s' h => ?_) ?_
        · refine ⟨h.2, fun target code hother hdeliverable => h.1 ?_⟩
          obtain ⟨hothercode, hsame⟩ := (due_iff hconfig hschema hreads).1 hother
          obtain ⟨other, hother, hrender⟩ := hcode.1 hothercode
          rw [houtput, Except.ok.injEq] at hother
          rw [hother, hrender]
          exact hdeliverable path (hsame ▸ htarget)
        · intro _ s' h
          refine .note_bind (.pure ⟨some path, output.render, hdue _ htarget, ?_, rfl, h.2⟩)
          intro other hother
          cases hother
          exact h.1

end Parts

/-! ## Runs -/

theorem run_run {σ : Type} {host : Host (StateM σ)} {arguments : List String} {f : Flags}
    (harguments : parse arguments = some (.generate f)) (s : σ) :
    (run host arguments).run s =
      match ((Run.generate host f).run.run []).run s with
      | ((.ok stdout, notes), s') => (⟨0, stdout, "", notes⟩, s')
      | ((.error message, notes), s') => (⟨1, "", message ++ "\n", notes⟩, s') := by
  unfold run
  rw [harguments]
  rw [StateT.run_bind]
  rcases ((Run.generate host f).run.run []).run s with ⟨⟨result, notes⟩, s'⟩
  cases result <;> rfl

/-- A run that generates ends with the code 0 if there is code to deliver and it can be delivered, and then
has delivered it. Otherwise it ends with the code 1, nothing on the standard output and no file changed. -/
theorem run_delivers {σ ι : Type} {host : Host (StateM σ)} {files : Files σ ι}
    (hlawful : host.Lawful files) {arguments : List String} {f : Flags}
    (harguments : parse arguments = some (.generate f)) (s : σ) :
    let outcome := ((run host arguments).run s).1
    let s' := ((run host arguments).run s).2
    (outcome.code = 0 ↔
      ∃ target code, Due host files s f target code ∧ Deliverable host s target code) ∧
    (outcome.code = 0 → ∀ target code, Due host files s f target code →
      Delivers files s s' outcome.stdout target code) ∧
    (outcome.code ≠ 0 → outcome.code = 1 ∧ outcome.stdout = "" ∧ files.Same s s') := by
  have hends := generate_yields (s := s) hlawful f []
  rw [run_run harguments]
  rcases hrun : ((Run.generate host f).run.run []).run s with ⟨⟨result, notes⟩, s'⟩
  rw [hrun] at hends
  cases result with
  | ok stdout =>
      obtain ⟨target, code, hdue, hdeliverable, hdelivers⟩ := hends
      refine ⟨iff_of_true rfl ⟨target, code, hdue, hdeliverable⟩, fun _ target' code' hdue' => ?_, ?_⟩
      · obtain ⟨rfl, rfl⟩ := hdue.unique hdue'
        exact hdelivers
      · exact fun habsurd => absurd rfl habsurd
  | error message =>
      obtain ⟨hsame, hnever⟩ := hends
      refine ⟨iff_of_false (by simp) ?_, fun habsurd => ?_, fun _ => ⟨rfl, rfl, hsame⟩⟩
      · intro ⟨target, code, hdue, hdeliverable⟩
        exact hnever target code hdue hdeliverable
      · cases habsurd

/-- A directory with a document and a configuration file that names an output file in a directory that is
not there yet. -/
def configured : FileTree :=
  ⟨[["work"]],
    [(["work", "api.json"], "\x7b\"paths\": \x7b\x7d\x7d".toUTF8),
      (["work", "date-codegen.toml"],
        "schema_file = \"api.json\"\noutput_file = \"lib/dates.ts\"\n".toUTF8)],
    ["work"]⟩

/-- There the plain call delivers, and a call for a type that the document does not have leaves every
file. -/
theorem run_delivers_configured :
    let plain := (run FileTree.host ["generate"]).run configured
    let ghost := (run FileTree.host ["generate", "--type", "Ghost"]).run configured
    (plain.1.code = 0 ∧ ∃ target code, Due FileTree.host FileTree.observed configured {} target code ∧
      Delivers FileTree.observed configured plain.2 plain.1.stdout target code) ∧
    ghost.1.code = 1 ∧ ghost.1.stdout = "" ∧ FileTree.observed.Same configured ghost.2 := by
  have hghost : parse ["generate", "--type", "Ghost"] = some (.generate { types := ["Ghost"] }) := by
    have hflag : asksForHelp "--type" = false := by decide +kernel
    have hattached : attachedValue? "--type" = none := by decide +kernel
    have hvalue : isValue "Ghost" = true := by decide +kernel
    simp [parse, parseGenerate, hflag, hattached, hvalue, Flags.raise?, valueOption?, Flags.give]
  obtain ⟨hiff, hdelivers, _⟩ := run_delivers FileTree.host_lawful
    (show parse ["generate"] = some (.generate {}) from rfl) configured
  obtain ⟨_, _, hfails⟩ := run_delivers FileTree.host_lawful hghost configured
  have hcode : ((run FileTree.host ["generate"]).run configured).1.code = 0 := by decide +kernel
  obtain ⟨target, code, hdue, _⟩ := hiff.1 hcode
  refine ⟨⟨hcode, target, code, hdue, hdelivers hcode target code hdue⟩, hfails ?_⟩
  decide +kernel

/-- Where the working directory is gone no configuration can be looked for. -/
example : ((run FileTree.host ["generate", "--schema", "/tmp/api.json"]).run
    ⟨[["tmp"]], [(["tmp", "api.json"], "\x7b\"paths\": \x7b\x7d\x7d".toUTF8)],
      ["tmp", "gone"]⟩).1.stderr
      = "Failed to determine current directory: no such directory\n" := by
  decide +kernel

end CommandLine

end DateReviver
