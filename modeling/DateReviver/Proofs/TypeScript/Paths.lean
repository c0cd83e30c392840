import DateReviver.Proofs.TypeScript.Identifier
import DateReviver.TypeScript.Printer

/-!
# Reading access paths

The text of an access path can be read back, whatever the names of its properties are. A name ends
before the first character that names cannot have; a quoted text ends at the first quote that has no
backslash of its own before it.
-/

namespace DateReviver.TypeScript

/-! ## Names -/

/-- A character that a name may have. Beyond ASCII nothing is asked. -/
def isNameChar (c : Char) : Bool :=
  isIdentPart c || 128 ≤ c.toNat

/-- A name that is not reserved. Every identifier that the language does not reserve is one. -/
structure IsName (name : String) : Prop where
  nonempty : name.toList ≠ []
  chars : ∀ c ∈ name.toList, isNameChar c = true
  notReserved : isReserved name = false

theorem isNameChar_of_isIdentPart {c : Char} (h : isIdentPart c = true) : isNameChar c = true := by
  rw [isNameChar, h, Bool.true_or]

theorem IsIdentifier.chars {name : String} (h : IsIdentifier name) :
    ∀ c ∈ name.toList, isNameChar c = true :=
  fun c hc => isNameChar_of_isIdentPart (List.all_eq_true.1 h.all_identPart c hc)

theorem IsUnreserved.isName {name : String} (h : IsUnreserved name) : IsName name := by
  refine ⟨?_, h.identifier.chars, h.notReserved⟩
  obtain ⟨c, rest, hchars, _⟩ := h.identifier
  simp [hchars]

/-- A text that does not go on with characters of a name. -/
def NoName (rest : List Char) : Prop :=
  ∀ c, rest.head? = some c → isNameChar c = false

/-- A text that goes on with no further step of a path. -/
def NoStep (rest : List Char) : Prop :=
  ∀ c, rest.head? = some c → isNameChar c = false ∧ c ≠ '.' ∧ c ≠ '['

theorem NoStep.noName {rest : List Char} (h : NoStep rest) : NoName rest :=
  fun c hc => (h c hc).1

def readName (s : List Char) : String × List Char :=
  (String.ofList (s.takeWhile isNameChar), s.dropWhile isNameChar)

theorem takeWhile_noName {rest : List Char} (h : NoName rest) : rest.takeWhile isNameChar = [] := by
  cases rest with
  | nil => rfl
  | cons c tail => rw [List.takeWhile_cons_of_neg (by simp [h c rfl])]

theorem dropWhile_noName {rest : List Char} (h : NoName rest) :
    rest.dropWhile isNameChar = rest := by
  cases rest with
  | nil => rfl
  | cons c tail => rw [List.dropWhile_cons_of_neg (by simp [h c rfl])]

/-- The longest name at the start of a text is the one that was written. -/
theorem readName_append {name : String} {rest : List Char}
    (hname : ∀ c ∈ name.toList, isNameChar c = true) (hrest : NoName rest) :
    readName (name.toList ++ rest) = (name, rest) := by
  rw [readName, List.takeWhile_append_of_pos hname, List.dropWhile_append_of_pos hname,
    takeWhile_noName hrest, dropWhile_noName hrest, List.append_nil, String.ofList_toList]

/-! ## Quoted texts -/

/-- Read up to the closing quote. -/
def readQuoted : List Char → Option (List Char × List Char)
  | [] => none
  | '"' :: rest => some ([], rest)
  | '\\' :: c :: rest => (readQuoted rest).map fun (value, last) => (c :: value, last)
  | c :: rest => (readQuoted rest).map fun (value, last) => (c :: value, last)

theorem readQuoted_escapeChars (value rest : List Char) :
    readQuoted (escapeChars value ++ '"' :: rest) = some (value, rest) := by
  induction value with
  | nil => rfl
  | cons c value ih =>
      rw [escapeChars]
      split
      · rw [List.cons_append, List.cons_append, readQuoted, ih]
        rfl
      · rename_i hplain
        rw [not_or] at hplain
        rw [List.cons_append, readQuoted, ih]
        · rfl
        · exact hplain.2
        · intro _ _ habsurd
          exact absurd habsurd hplain.1

theorem length_of_readQuoted {s value rest : List Char} (h : readQuoted s = some (value, rest)) :
    rest.length < s.length := by
  fun_induction readQuoted s generalizing value rest with
  | case1 => cases h
  | case2 tail =>
      cases h
      simp
  | case3 c tail ih =>
      obtain ⟨⟨own, last⟩, hown, heq⟩ := Option.map_eq_some_iff.1 h
      cases heq
      have hlt := ih hown
      simp only [List.length_cons]
      omega
  | case4 c tail _ _ ih =>
      obtain ⟨⟨own, last⟩, hown, heq⟩ := Option.map_eq_some_iff.1 h
      cases heq
      have hlt := ih hown
      simp only [List.length_cons]
      omega

/-! ## Steps -/

/-- Read the steps of a path that go on from an object. -/
def readSteps (object : Expr) (s : List Char) : Option (Expr × List Char) :=
  match s with
  | '.' :: tail =>
      readSteps (.member object (readName tail).1) (readName tail).2
  | '[' :: '"' :: tail =>
      match _h : readQuoted tail with
      | some (value, ']' :: rest) => readSteps (.index object (.text (String.ofList value))) rest
      | _ => none
  | '[' :: tail =>
      match _h : (readName tail).2 with
      | ']' :: rest => readSteps (.index object (.ident (readName tail).1)) rest
      | _ => none
  | rest => some (object, rest)
termination_by s.length
decreasing_by
  · have hle := (List.dropWhile_suffix isNameChar (l := tail)).length_le
    simp only [readName, List.length_cons]
    omega
  · have hlt := length_of_readQuoted _h
    simp only [List.length_cons] at hlt ⊢
    omega
  · have hle := (List.dropWhile_suffix isNameChar (l := tail)).length_le
    simp only [readName] at _h
    rw [_h] at hle
    simp only [List.length_cons] at hle ⊢
    omega

section Steps

variable {object : Expr} {name : String} {rest : List Char}

theorem readSteps_member (hname : ∀ c ∈ name.toList, isNameChar c = true) (hrest : NoName rest) :
    readSteps object ('.' :: (name.toList ++ rest)) = readSteps (.member object name) rest := by
  rw [readSteps, readName_append hname hrest]

theorem readSteps_text (value : String) :
    readSteps object ('[' :: ((quote value).toList ++ ']' :: rest)) =
      readSteps (.index object (.text value)) rest := by
  have hquote : (quote value).toList ++ ']' :: rest =
      '"' :: (escapeChars value.toList ++ '"' :: ']' :: rest) := by
    simp [quote, escape]
  rw [hquote, readSteps]
  split
  · rename_i own last hread
    rw [readQuoted_escapeChars] at hread
    cases hread
    rw [String.ofList_toList]
  · rename_i hother
    exact absurd (readQuoted_escapeChars value.toList (']' :: rest)) (hother _ _)

theorem readSteps_name (h : IsName name) :
    readSteps object ('[' :: (name.toList ++ ']' :: rest)) =
      readSteps (.index object (.ident name)) rest := by
  have hclose : NoName (']' :: rest) := by
    intro c hc
    cases hc
    rfl
  have hread := readName_append h.chars hclose
  rw [readSteps]
  · split
    · rename_i last hlast
      rw [hread] at hlast ⊢
      cases hlast
      rfl
    · rename_i hother
      rw [hread] at hother
      exact absurd rfl (hother rest)
  · intro tail habsurd
    have hquote : isNameChar '"' = true := by
      cases hchars : name.toList with
      | nil => exact absurd hchars h.nonempty
      | cons c more =>
          rw [hchars, List.cons_append] at habsurd
          obtain ⟨rfl, _⟩ := List.cons.inj habsurd
          exact h.chars '"' (by simp [hchars])
    cases hquote

theorem readSteps_end (h : NoStep rest) : readSteps object rest = some (object, rest) := by
  rw [readSteps.eq_def]
  split
  · exact absurd rfl (h '.' rfl).2.1
  · exact absurd rfl (h '[' rfl).2.2
  · exact absurd rfl (h '[' rfl).2.2
  · rfl

end Steps

/-! ## Paths -/

/-- A way to a value: from a variable through properties of any names and positions that are
held by variables of loops. -/
inductive IsPath : Expr → Prop
  | ident {name : String} (h : IsName name) : IsPath (.ident name)
  | property {object : Expr} (name : String) (h : IsPath object) : IsPath (object.property name)
  | index {object : Expr} {name : String} (h : IsPath object) (hname : IsName name) :
      IsPath (.index object (.ident name))

/-- Read a path. It goes on as far as the text has steps. -/
def readPath (s : List Char) : Option (Expr × List Char) :=
  readSteps (.ident (readName s).1) (readName s).2

/-- A path is read back, and then the steps that follow it. -/
theorem IsPath.readPath_append {path : Expr} (h : IsPath path) {rest : List Char}
    (hrest : NoName rest) : readPath (path.render.toList ++ rest) = readSteps path rest := by
  induction h generalizing rest with
  | ident hname =>
      rw [Expr.render, readPath, readName_append hname.chars hrest]
  | @property object name _ ih =>
      unfold Expr.property
      split
      · have hrender : (Expr.index object (.text name)).render.toList ++ rest =
            object.render.toList ++ '[' :: ((quote name).toList ++ ']' :: rest) := by
          simp [Expr.render]
        rw [hrender, ih fun c hc => by cases hc; rfl, readSteps_text]
      · rename_i hdot
        have hrender : (Expr.member object name).render.toList ++ rest =
            object.render.toList ++ '.' :: (name.toList ++ rest) := by
          simp [Expr.render]
        rw [hrender, ih fun c hc => by cases hc; rfl,
          readSteps_member (isIdentifier_iff.2 (by simpa using hdot)).chars hrest]
  | @index object name _ hname ih =>
      have hrender : (Expr.index object (.ident name)).render.toList ++ rest =
          object.render.toList ++ '[' :: (name.toList ++ ']' :: rest) := by
        simp [Expr.render]
      rw [hrender, ih fun c hc => by cases hc; rfl, readSteps_name hname]

theorem IsPath.readPath_eq {path : Expr} (h : IsPath path) {rest : List Char} (hrest : NoStep rest) :
    readPath (path.render.toList ++ rest) = some (path, rest) := by
  rw [h.readPath_append hrest.noName, readSteps_end hrest]

/-- A path begins with a name. What follows it begins with a dot or a bracket. -/
theorem IsPath.exists_base {path : Expr} (h : IsPath path) :
    ∃ name steps, IsName name ∧ path.render.toList = name.toList ++ steps ∧
      ∀ c, steps.head? = some c → c = '.' ∨ c = '[' := by
  have hmore : ∀ {steps : List Char} {first : Char} (more : List Char),
      (∀ c, steps.head? = some c → c = '.' ∨ c = '[') → (first = '.' ∨ first = '[') →
        ∀ c, (steps ++ first :: more).head? = some c → c = '.' ∨ c = '[' := by
    intro steps first more hsteps hfirst c hc
    cases steps with
    | nil =>
        cases hc
        exact hfirst
    | cons own rest => exact hsteps c hc
  induction h with
  | @ident name hname => exact ⟨name, [], hname, by simp [Expr.render], by simp⟩
  | @property object key _ ih =>
      obtain ⟨name, steps, hname, hrender, hsteps⟩ := ih
      unfold Expr.property
      split
      · refine ⟨name, steps ++ '[' :: ((quote key).toList ++ [']']), hname, ?_,
          hmore _ hsteps (.inr rfl)⟩
        simp [Expr.render, hrender]
      · refine ⟨name, steps ++ '.' :: key.toList, hname, ?_, hmore _ hsteps (.inl rfl)⟩
        simp [Expr.render, hrender]
  | @index object own _ _ ih =>
      obtain ⟨name, steps, hname, hrender, hsteps⟩ := ih
      refine ⟨name, steps ++ '[' :: (own.toList ++ [']']), hname, ?_,
        hmore _ hsteps (.inr rfl)⟩
      simp [Expr.render, hrender]

end DateReviver.TypeScript
