import DateReviver.Emission
import DateReviver.Proofs.TypeScript.Paths
import Mathlib.Data.List.Basic

/-!
# Reading statements

Every statement that emission writes can be read back from its text. What a line is shows at its
first name, which is a reserved word or the start of a path; a block ends where a line is indented
less. So the text of statements stands for no other statements.
-/

namespace DateReviver.TypeScript

/-! ## Forms -/

/-- A test whether the value of a path is there: it is not undefined, not null, or neither. -/
inductive IsTest : Expr → Prop
  | defined {value : Expr} (h : IsPath value) : IsTest (isDefined value)
  | notNull {value : Expr} (h : IsPath value) : IsTest (isNotNull value)
  | present {value : Expr} (h : IsPath value) : IsTest (.both (isDefined value) (isNotNull value))

/-- The statements that emission writes. -/
inductive Emitted : Stmt → Prop
  | convert {value : Expr} (h : IsPath value) : Emitted (convertDate value)
  | call {name : String} {value : Expr} (hname : IsName name) (h : IsPath value) :
      Emitted (.expr (.call (.ident name) [value]))
  | guarded {test : Expr} {body : List Stmt} (h : IsTest test) (hbody : ∀ s ∈ body, Emitted s) :
      Emitted (.guarded test body)
  | forIndex {index : String} {array : Expr} {body : List Stmt} (hname : IsName index)
      (h : IsPath array) (hbody : ∀ s ∈ body, Emitted s) : Emitted (.forIndex index array body)
  | forKeys {key : String} {value : Expr} {body : List Stmt} (hname : IsName key)
      (h : IsPath value) (hbody : ∀ s ∈ body, Emitted s) :
      Emitted (.forOf key (.call (.member (.ident "Object") "keys") [value]) body)
  | ret {name : String} (hname : IsName name) : Emitted (.ret (.ident name))

/-! ## Fixed words -/

/-- What follows a word at the start of a text. -/
def skip (word : String) (s : List Char) : Option (List Char) :=
  word.toList.isPrefixOf? s

theorem skip_eq_some_iff {word : String} {s rest : List Char} :
    skip word s = some rest ↔ s = word.toList ++ rest :=
  List.isPrefixOf?_eq_some_iff_append_eq.trans eq_comm

@[simp] theorem skip_append (word : String) (rest : List Char) :
    skip word (word.toList ++ rest) = some rest :=
  skip_eq_some_iff.2 rfl

/-- Whether a word ends a name that it follows. -/
def endsName (word : String) : Bool :=
  word.toList.head?.any fun c => !isNameChar c

/-- Whether a word ends a path that it follows. -/
def endsPath (word : String) : Bool :=
  word.toList.head?.any fun c => !isNameChar c && c != '.' && c != '['

theorem noName_of_endsName {word : String} (h : endsName word = true) (rest : List Char) :
    NoName (word.toList ++ rest) := by
  unfold endsName at h
  intro c hc
  cases hchars : word.toList with
  | nil =>
      rw [hchars] at h
      cases h
  | cons first more =>
      rw [hchars] at h hc
      cases hc
      simpa using h

theorem noStep_of_endsPath {word : String} (h : endsPath word = true) (rest : List Char) :
    NoStep (word.toList ++ rest) := by
  unfold endsPath at h
  intro c hc
  cases hchars : word.toList with
  | nil =>
      rw [hchars] at h
      cases h
  | cons first more =>
      rw [hchars] at h hc
      cases hc
      simpa [and_assoc] using h

/-! ## Lines -/

theorem render_convertDate (level : Nat) (value : Expr) :
    ((convertDate value).render level).toList =
      (indentation level).toList ++ (value.render.toList ++ (" = new Date(".toList ++
        (value.render.toList ++ ");\n".toList))) := by
  simp [convertDate, Stmt.render, Expr.render, Expr.renderAll]

theorem render_call (level : Nat) (name : String) (value : Expr) :
    ((Stmt.expr (.call (.ident name) [value])).render level).toList =
      (indentation level).toList ++ (name.toList ++ ("(".toList ++
        (value.render.toList ++ ");\n".toList))) := by
  simp [Stmt.render, Expr.render, Expr.renderAll]

theorem render_ret (level : Nat) (name : String) :
    ((Stmt.ret (.ident name)).render level).toList =
      (indentation level).toList ++ ("return".toList ++ (" ".toList ++
        (name.toList ++ ";\n".toList))) := by
  simp [Stmt.render, Expr.render]

/-- The lines of a block that follow its head. -/
def blockText (level : Nat) (body : List Stmt) : List Char :=
  " \x7b\n".toList ++ ((Stmt.renderAll (level + 1) body).toList ++
    ((indentation level).toList ++ "\x7d\n".toList))

theorem render_guarded (level : Nat) (test : Expr) (body : List Stmt) :
    ((Stmt.guarded test body).render level).toList =
      (indentation level).toList ++ ("if".toList ++ (" (".toList ++ (test.render.toList ++
        (")".toList ++ blockText level body)))) := by
  simp [Stmt.render, blockText]

theorem render_forIndex (level : Nat) (index : String) (array : Expr) (body : List Stmt) :
    ((Stmt.forIndex index array body).render level).toList =
      (indentation level).toList ++ ("for".toList ++ (" (let ".toList ++ (index.toList ++
        (" = 0; ".toList ++ (index.toList ++ (" < ".toList ++ (array.render.toList ++
          ('.' :: ("length".toList ++ ("; ".toList ++ (index.toList ++ ("++)".toList ++
            blockText level body)))))))))))) := by
  simp [Stmt.render, blockText]

theorem render_forKeys (level : Nat) (key : String) (value : Expr) (body : List Stmt) :
    ((Stmt.forOf key (.call (.member (.ident "Object") "keys") [value]) body).render level).toList =
      (indentation level).toList ++ ("for".toList ++ (" (const ".toList ++ (key.toList ++
        (" of Object.keys(".toList ++ (value.render.toList ++ ("))".toList ++
          blockText level body)))))) := by
  simp [Stmt.render, Expr.render, Expr.renderAll, blockText]

theorem render_isDefined (value : Expr) : (isDefined value).render.toList =
    value.render.toList ++ (" !== ".toList ++ "undefined".toList) := by
  simp [isDefined, Expr.render]

theorem render_isNotNull (value : Expr) : (isNotNull value).render.toList =
    value.render.toList ++ (" !== ".toList ++ "null".toList) := by
  simp [isNotNull, Expr.render]

theorem render_present (value : Expr) :
    (Expr.both (isDefined value) (isNotNull value)).render.toList =
      value.render.toList ++ (" !== ".toList ++ ("undefined".toList ++ (" && ".toList ++
        (value.render.toList ++ " !== null".toList)))) := by
  simp [isDefined, isNotNull, Expr.render]

/-! ## Readers -/

/-- A reader takes something from the start of a text and leaves the rest. -/
abbrev Reader (α : Type) :=
  List Char → Option (α × List Char)

def readTest : Reader Expr := fun s => do
  let (value, s) ← readPath s
  let s ← skip " !== " s
  let (word, s) := readName s
  if word = "null" then return (isNotNull value, s)
  match skip " && " s with
  | none => return (isDefined value, s)
  | some s => do
      let (other, s) ← readPath s
      let s ← skip " !== null" s
      return (.both (isDefined value) (isNotNull other), s)

/-- Read a block up to its end, where `lines` reads the lines in it. -/
def readBlock (lines : Nat → Reader (List Stmt)) (level : Nat) : Reader (List Stmt) := fun s => do
  let s ← skip " \x7b\n" s
  let (body, s) ← lines (level + 1) s
  let s ← skip (indentation level) s
  let s ← skip "\x7d\n" s
  return (body, s)

section Statements

variable (lines : Nat → Reader (List Stmt)) (level : Nat)

def readGuard : Reader Stmt := fun s => do
  let s ← skip " (" s
  let (test, s) ← readTest s
  let s ← skip ")" s
  let (body, s) ← readBlock lines level s
  return (.guarded test body, s)

/-- The object of a path that ends in a property. -/
def objectOf : Expr → Expr
  | .member object _ => object
  | other => other

def readCount : Reader Stmt := fun s => do
  let (index, s) := readName s
  let s ← skip " = 0; " s
  let s ← skip index s
  let s ← skip " < " s
  let (length, s) ← readPath s
  let s ← skip "; " s
  let s ← skip index s
  let s ← skip "++)" s
  let (body, s) ← readBlock lines level s
  return (.forIndex index (objectOf length) body, s)

def readKeys : Reader Stmt := fun s => do
  let (key, s) := readName s
  let s ← skip " of Object.keys(" s
  let (value, s) ← readPath s
  let s ← skip "))" s
  let (body, s) ← readBlock lines level s
  return (.forOf key (.call (.member (.ident "Object") "keys") [value]) body, s)

def readReturn : Reader Stmt := fun s => do
  let s ← skip " " s
  let (name, s) := readName s
  let s ← skip ";\n" s
  return (.ret (.ident name), s)

def readCall (name : String) : Reader Stmt := fun s => do
  let (value, s) ← readPath s
  let s ← skip ");\n" s
  return (.expr (.call (.ident name) [value]), s)

def readConversion (name : String) : Reader Stmt := fun s => do
  let (target, s) ← readSteps (.ident name) s
  let s ← skip " = new Date(" s
  let (value, s) ← readPath s
  let s ← skip ");\n" s
  return (.expr (.assign target (.new (.ident "Date") [value])), s)

/-- Read a statement by the name that it begins with. -/
def readStmt : Reader Stmt := fun s =>
  let (word, s) := readName s
  if word = "if" then readGuard lines level s
  else if word = "for" then
    match skip " (let " s with
    | some s => readCount lines level s
    | none => (skip " (const " s).bind (readKeys lines level)
  else if word = "return" then readReturn s
  else
    match skip "(" s with
    | some s => readCall word s
    | none => readConversion word s

end Statements

/-- Read the statements of a level, which end where no line of this level begins with a name.
`fuel` is more than the characters that they may have. -/
def readLines : (fuel : Nat) → (level : Nat) → Reader (List Stmt)
  | 0, _, _ => none
  | fuel + 1, level, s =>
      match skip (indentation level) s with
      | none => some ([], s)
      | some line =>
          if (readName line).1 = "" then some ([], s)
          else do
            let (own, rest) ← readStmt (readLines fuel) level line
            let (others, last) ← readLines fuel level rest
            return (own :: others, last)

/-! ## Tests and blocks -/

theorem readName_word {word : String} (hword : word.toList.all isNameChar = true) {next : String}
    (hnext : endsName next = true) (rest : List Char) :
    readName (word.toList ++ (next.toList ++ rest)) = (word, next.toList ++ rest) :=
  readName_append (List.all_eq_true.1 hword) (noName_of_endsName hnext rest)

theorem IsPath.readPath_word {path : Expr} (h : IsPath path) {next : String}
    (hnext : endsPath next = true) (rest : List Char) :
    readPath (path.render.toList ++ (next.toList ++ rest)) = some (path, next.toList ++ rest) :=
  h.readPath_eq (noStep_of_endsPath hnext rest)

theorem IsName.readName_word {name : String} (h : IsName name) {next : String}
    (hnext : endsName next = true) (rest : List Char) :
    readName (name.toList ++ (next.toList ++ rest)) = (name, next.toList ++ rest) :=
  readName_append h.chars (noName_of_endsName hnext rest)

theorem IsTest.readTest_eq {test : Expr} (h : IsTest test) (rest : List Char) :
    readTest (test.render.toList ++ (")".toList ++ rest)) = some (test, ")".toList ++ rest) := by
  have hstop : skip " && " (")".toList ++ rest) = none := rfl
  cases h with
  | defined hpath =>
      rw [render_isDefined, List.append_assoc, List.append_assoc, readTest,
        hpath.readPath_word (by decide)]
      simp only [Option.bind_eq_bind, Option.bind_some, skip_append]
      rw [readName_word (by decide) (by decide)]
      simp only [hstop]
      rfl
  | notNull hpath =>
      rw [render_isNotNull, List.append_assoc, List.append_assoc, readTest,
        hpath.readPath_word (by decide)]
      simp only [Option.bind_eq_bind, Option.bind_some, skip_append]
      rw [readName_word (by decide) (by decide)]
      rfl
  | present hpath =>
      rw [render_present]
      simp only [List.append_assoc]
      rw [readTest, hpath.readPath_word (by decide)]
      simp only [Option.bind_eq_bind, Option.bind_some, skip_append]
      rw [readName_word (by decide) (by decide)]
      simp only [skip_append]
      rw [hpath.readPath_word (by decide)]
      simp only [Option.bind_some, skip_append]
      rfl

/-- A text that goes on with no statement of a level. -/
def Closes (level : Nat) (rest : List Char) : Prop :=
  ∀ line, skip (indentation level) rest = some line → NoName line

/-- A block ends where a line is indented less. -/
theorem closes_block (level : Nat) (rest : List Char) :
    Closes (level + 1) ((indentation level).toList ++ ("\x7d\n".toList ++ rest)) := by
  intro line hline
  rw [skip_eq_some_iff] at hline
  have hdeeper : (indentation (level + 1)).toList =
      (indentation level).toList ++ [' ', ' '] := by
    simp only [indentation, String.toList_ofList, Nat.mul_add, Nat.mul_one,
      ← List.replicate_append_replicate]
    rfl
  rw [hdeeper, List.append_assoc, List.append_cancel_left_eq] at hline
  simp at hline

/-- Lines that are read back from the text of statements, up to the end of their level. -/
def ReadsBack (lines : Nat → Reader (List Stmt)) (level : Nat) (body : List Stmt) : Prop :=
  ∀ rest, Closes level rest →
    lines level ((Stmt.renderAll level body).toList ++ rest) = some (body, rest)

section Statements

variable {lines : Nat → Reader (List Stmt)} {level : Nat} {body : List Stmt}

theorem readBlock_eq (h : ReadsBack lines (level + 1) body) (rest : List Char) :
    readBlock lines level (blockText level body ++ rest) = some (body, rest) := by
  have hclosed := h _ (closes_block level rest)
  simp only [blockText, List.append_assoc, readBlock, Option.bind_eq_bind, skip_append,
    Option.bind_some, hclosed]
  rfl

theorem readGuard_eq {test : Expr} (htest : IsTest test) (h : ReadsBack lines (level + 1) body)
    (rest : List Char) :
    readGuard lines level (" (".toList ++ (test.render.toList ++ (")".toList ++
      (blockText level body ++ rest)))) = some (.guarded test body, rest) := by
  simp only [readGuard, Option.bind_eq_bind, skip_append, Option.bind_some, htest.readTest_eq,
    readBlock_eq h]
  rfl

theorem readCount_eq {index : String} {array : Expr} (hindex : IsName index) (harray : IsPath array)
    (h : ReadsBack lines (level + 1) body) (rest : List Char) :
    readCount lines level (index.toList ++ (" = 0; ".toList ++ (index.toList ++ (" < ".toList ++
      (array.render.toList ++ ('.' :: ("length".toList ++ ("; ".toList ++ (index.toList ++
        ("++)".toList ++ (blockText level body ++ rest)))))))))))
      = some (.forIndex index array body, rest) := by
  have hlength : ∀ after, readPath (array.render.toList ++
      ('.' :: ("length".toList ++ ("; ".toList ++ after)))) =
        some (.member array "length", "; ".toList ++ after) := by
    intro after
    rw [harray.readPath_append fun c hc => by cases hc; rfl,
      readSteps_member (List.all_eq_true.1 (by decide)) (noName_of_endsName (by decide) _),
      readSteps_end (noStep_of_endsPath (by decide) _)]
  rw [readCount, hindex.readName_word (by decide)]
  simp only [Option.bind_eq_bind, skip_append, Option.bind_some, hlength, readBlock_eq h]
  rfl

theorem readKeys_eq {key : String} {value : Expr} (hkey : IsName key) (hvalue : IsPath value)
    (h : ReadsBack lines (level + 1) body) (rest : List Char) :
    readKeys lines level (key.toList ++ (" of Object.keys(".toList ++ (value.render.toList ++
      ("))".toList ++ (blockText level body ++ rest))))) =
        some (.forOf key (.call (.member (.ident "Object") "keys") [value]) body, rest) := by
  rw [readKeys, hkey.readName_word (by decide)]
  simp only [Option.bind_eq_bind, skip_append, Option.bind_some]
  rw [hvalue.readPath_word (by decide)]
  simp only [skip_append, Option.bind_some, readBlock_eq h]
  rfl

theorem readReturn_eq {name : String} (hname : IsName name) (rest : List Char) :
    readReturn (" ".toList ++ (name.toList ++ (";\n".toList ++ rest))) =
      some (.ret (.ident name), rest) := by
  simp only [readReturn, Option.bind_eq_bind, skip_append, Option.bind_some]
  rw [hname.readName_word (by decide)]
  simp only [skip_append, Option.bind_some]
  rfl

theorem readCall_eq {value : Expr} (hvalue : IsPath value) (name : String) (rest : List Char) :
    readCall name (value.render.toList ++ (");\n".toList ++ rest)) =
      some (.expr (.call (.ident name) [value]), rest) := by
  rw [readCall, hvalue.readPath_word (by decide)]
  simp only [Option.bind_eq_bind, skip_append, Option.bind_some]
  rfl

theorem IsName.ne {name word : String} (h : IsName name) (hword : isReserved word = true) :
    name ≠ word := by
  rintro rfl
  rw [h.notReserved] at hword
  cases hword

/-- A line that begins with a name is a call or a conversion. -/
theorem readStmt_of_name {name : String} (hname : IsName name) {s after : List Char}
    (hread : readName s = (name, after)) : readStmt lines level s =
      match skip "(" after with
      | some s => readCall name s
      | none => readConversion name after := by
  rw [readStmt, hread]
  simp only [hname.ne (show isReserved "if" = true by decide),
    hname.ne (show isReserved "for" = true by decide),
    hname.ne (show isReserved "return" = true by decide), if_false]

theorem readStmt_convertDate {value : Expr} (h : IsPath value) (rest : List Char) :
    readStmt lines level (value.render.toList ++ (" = new Date(".toList ++
      (value.render.toList ++ (");\n".toList ++ rest)))) = some (convertDate value, rest) := by
  have hpath := @IsPath.readPath_word value h " = new Date(" (by decide)
    (value.render.toList ++ (");\n".toList ++ rest))
  obtain ⟨name, steps, hname, hrender, hsteps⟩ := h.exists_base
  generalize hafter : value.render.toList ++ (");\n".toList ++ rest) = after at hpath ⊢
  have hhead : ∀ c, (steps ++ (" = new Date(".toList ++ after)).head? = some c →
      c = '.' ∨ c = '[' ∨ c = ' ' := by
    intro c hc
    cases steps with
    | nil =>
        have hspace : c = ' ' := by simpa [eq_comm] using hc
        exact .inr (.inr hspace)
    | cons first more => exact (hsteps c hc).imp_right .inl
  have hname' : readName (value.render.toList ++ (" = new Date(".toList ++ after)) =
      (name, steps ++ (" = new Date(".toList ++ after)) := by
    rw [hrender, List.append_assoc]
    refine readName_append hname.chars fun c hc => ?_
    rcases hhead c hc with rfl | rfl | rfl <;> rfl
  have hcall : skip "(" (steps ++ (" = new Date(".toList ++ after)) = none := by
    rw [Option.eq_none_iff_forall_ne_some]
    intro s hs
    rw [skip_eq_some_iff] at hs
    have habsurd := hhead '(' (by rw [hs]; rfl)
    simp at habsurd
  have hsteps' : readSteps (.ident name) (steps ++ (" = new Date(".toList ++ after)) =
      some (value, " = new Date(".toList ++ after) := by
    rw [readPath, hname'] at hpath
    exact hpath
  rw [readStmt_of_name hname hname', hcall]
  dsimp only
  rw [readConversion, hsteps']
  simp only [Option.bind_eq_bind, Option.bind_some, skip_append, ← hafter]
  rw [h.readPath_word (by decide)]
  simp only [Option.bind_some, skip_append]
  rfl

end Statements

/-! ## Statements -/

def StartsName (line : List Char) : Prop :=
  ∃ c tail, line = c :: tail ∧ isNameChar c = true

theorem StartsName.readName_ne {line : List Char} (h : StartsName line) (rest : List Char) :
    (readName (line ++ rest)).1 ≠ "" := by
  obtain ⟨c, tail, rfl, hc⟩ := h
  intro hempty
  have hchars := congrArg String.toList hempty
  rw [List.cons_append, readName, List.takeWhile_cons_of_pos hc, String.toList_ofList] at hchars
  cases hchars

theorem IsName.startsName {name : String} (h : IsName name) (rest : List Char) :
    StartsName (name.toList ++ rest) := by
  have hchars := h.chars
  cases hname : name.toList with
  | nil => exact absurd hname h.nonempty
  | cons c tail =>
      rw [hname] at hchars
      exact ⟨c, tail ++ rest, rfl, hchars c List.mem_cons_self⟩

theorem IsPath.startsName {path : Expr} (h : IsPath path) (rest : List Char) :
    StartsName (path.render.toList ++ rest) := by
  obtain ⟨name, steps, hname, hrender, _⟩ := h.exists_base
  rw [hrender, List.append_assoc]
  exact hname.startsName _

/-- A statement that is read back from its line, whatever follows it. -/
def Legible (s : Stmt) : Prop :=
  ∀ (fuel level : Nat) (rest : List Char), (s.render level).toList.length ≤ fuel →
    ∃ line, (s.render level).toList = (indentation level).toList ++ line ∧ StartsName line ∧
      readStmt (readLines fuel) level (line ++ rest) = some (s, rest)

theorem readLines_closes {level : Nat} {rest : List Char} (h : Closes level rest) (fuel : Nat) :
    readLines (fuel + 1) level rest = some ([], rest) := by
  rw [readLines]
  split
  · rfl
  · rename_i line hline
    have hnone : (readName line).1 = "" := by
      rw [readName, takeWhile_noName (h line hline)]
    rw [if_pos hnone]

/-- Statements that are read back one by one are read back together. -/
theorem readsBack_of_legible {body : List Stmt} (h : ∀ s ∈ body, Legible s) {fuel level : Nat}
    (hfuel : (Stmt.renderAll level body).toList.length < fuel) :
    ReadsBack (readLines fuel) level body := by
  induction body generalizing fuel with
  | nil =>
      intro rest hrest
      obtain ⟨more, rfl⟩ : ∃ more, fuel = more + 1 := ⟨fuel - 1, by omega⟩
      have hempty : (Stmt.renderAll level []).toList = [] := by simp [Stmt.renderAll]
      rw [hempty, List.nil_append, readLines_closes hrest]
  | cons s others ih =>
      intro rest hrest
      obtain ⟨more, rfl⟩ : ∃ more, fuel = more + 1 := ⟨fuel - 1, by omega⟩
      have htext : (Stmt.renderAll level (s :: others)).toList =
          (s.render level).toList ++ (Stmt.renderAll level others).toList := by
        simp [Stmt.renderAll]
      rw [htext, List.length_append] at hfuel
      obtain ⟨line, hline, hstarts, hread⟩ := h s List.mem_cons_self more level
        ((Stmt.renderAll level others).toList ++ rest) (by omega)
      have hlength : 0 < line.length := by
        obtain ⟨c, tail, rfl, _⟩ := hstarts
        simp
      rw [hline, List.length_append] at hfuel
      have hrestBack : ReadsBack (readLines more) level others :=
        ih (fun other hmem => h other (List.mem_cons_of_mem _ hmem)) (by omega)
      rw [htext, hline, List.append_assoc, List.append_assoc, readLines, skip_append]
      simp only [if_neg (hstarts.readName_ne _), hread, Option.bind_eq_bind, Option.bind_some,
        hrestBack rest hrest]
      rfl

theorem length_body_lt (level : Nat) (body : List Stmt) :
    (Stmt.renderAll (level + 1) body).toList.length < (blockText level body).length := by
  simp [blockText]
  omega

theorem readsBack_of_blockText {body : List Stmt} (h : ∀ s ∈ body, Legible s) {fuel level : Nat}
    (hfuel : (blockText level body).length ≤ fuel) :
    ReadsBack (readLines fuel) (level + 1) body :=
  readsBack_of_legible h (Nat.lt_of_lt_of_le (length_body_lt level body) hfuel)

/-- Every statement that emission writes is read back from its line. -/
theorem Emitted.legible {s : Stmt} (h : Emitted s) : Legible s := by
  induction h with
  | @convert value h =>
      intro fuel level rest _
      refine ⟨_, render_convertDate level value, h.startsName _, ?_⟩
      simp only [List.append_assoc]
      exact readStmt_convertDate h rest
  | @call name value hname h =>
      intro fuel level rest _
      refine ⟨_, render_call level name value, hname.startsName _, ?_⟩
      simp only [List.append_assoc]
      rw [readStmt_of_name hname (hname.readName_word (by decide) _), skip_append]
      exact readCall_eq h name rest
  | @guarded test body htest _ ih =>
      intro fuel level rest hfuel
      rw [render_guarded] at hfuel
      simp only [List.length_append] at hfuel
      have hback : ReadsBack (readLines fuel) (level + 1) body :=
        readsBack_of_blockText ih (by omega)
      refine ⟨_, render_guarded level test body, ⟨_, _, rfl, rfl⟩, ?_⟩
      simp only [List.append_assoc]
      rw [readStmt, readName_word (by decide) (by decide)]
      exact readGuard_eq htest hback rest
  | @forIndex index array body hindex harray _ ih =>
      intro fuel level rest hfuel
      rw [render_forIndex] at hfuel
      simp only [List.length_append, List.length_cons] at hfuel
      have hback : ReadsBack (readLines fuel) (level + 1) body :=
        readsBack_of_blockText ih (by omega)
      refine ⟨_, render_forIndex level index array body, ⟨_, _, rfl, rfl⟩, ?_⟩
      simp only [List.append_assoc, List.cons_append]
      rw [readStmt, readName_word (by decide) (by decide)]
      simp only [skip_append]
      exact readCount_eq hindex harray hback rest
  | @forKeys key value body hkey hvalue _ ih =>
      intro fuel level rest hfuel
      rw [render_forKeys] at hfuel
      simp only [List.length_append] at hfuel
      have hback : ReadsBack (readLines fuel) (level + 1) body :=
        readsBack_of_blockText ih (by omega)
      refine ⟨_, render_forKeys level key value body, ⟨_, _, rfl, rfl⟩, ?_⟩
      simp only [List.append_assoc]
      rw [readStmt, readName_word (by decide) (by decide)]
      have hlet : ∀ after, skip " (let " (" (const ".toList ++ after) = none := fun _ => rfl
      simp only [hlet, skip_append]
      exact readKeys_eq hkey hvalue hback rest
  | @ret name hname =>
      intro fuel level rest _
      refine ⟨_, render_ret level name, ⟨_, _, rfl, rfl⟩, ?_⟩
      simp only [List.append_assoc]
      rw [readStmt, readName_word (by decide) (by decide)]
      exact readReturn_eq hname rest

/-! ## Texts -/

/-- Read all the statements of a text. -/
def readAll (level : Nat) (text : String) : Option (List Stmt) :=
  match readLines (text.toList.length + 1) level text.toList with
  | some (statements, []) => some statements
  | _ => none

/-- What emission writes is read back from its text. -/
theorem readAll_renderAll {statements : List Stmt} (h : ∀ s ∈ statements, Emitted s)
    (level : Nat) : readAll level (Stmt.renderAll level statements) = some statements := by
  have hend : Closes level [] := by
    intro line hline c hc
    rw [skip_eq_some_iff, eq_comm, List.append_eq_nil_iff] at hline
    rw [hline.2] at hc
    cases hc
  have hback := readsBack_of_legible (fun s hs => (h s hs).legible) (Nat.lt_succ_self _) [] hend
  rw [List.append_nil] at hback
  rw [readAll, hback]

end DateReviver.TypeScript
