import DateReviver.Text.Hex
import DateReviver.Proofs.TypeScript.Paths

/-!
# What string literals mean

The language reads a string literal up to the first quote without a backslash before it. A character
stands for itself, a backslash and what follows it for some other character, or for none at the end
of a line. No line ends inside of a literal by itself. The value of a literal is a sequence of code
units of sixteen bits, as are the names of properties; different strings are different sequences.

A written string is a literal with the value of the string, exactly if the string has no line breaks:
these are written as they are.
-/

namespace DateReviver.TypeScript

open DateReviver.Text

/-! ## Code units -/

/-- The code units of a code point: one, or two where one is not enough. -/
def pointUnits (point : Nat) : List Nat :=
  if point < 0x10000 then [point]
  else [0xD800 + (point - 0x10000) / 0x400, 0xDC00 + (point - 0x10000) % 0x400]

/-- A text as the language sees it. -/
def codeUnits (text : List Char) : List Nat :=
  text.flatMap fun c => pointUnits c.toNat

@[simp] theorem codeUnits_nil : codeUnits [] = [] :=
  rfl

@[simp] theorem codeUnits_cons (c : Char) (text : List Char) :
    codeUnits (c :: text) = pointUnits c.toNat ++ codeUnits text :=
  List.flatMap_cons

/-- No character is a surrogate, so the first unit tells where the units of a character end. -/
theorem pointUnits_append_inj {c d : Char} {units others : List Nat}
    (h : pointUnits c.toNat ++ units = pointUnits d.toNat ++ others) : c = d ∧ units = others := by
  have hc : c.toNat < 0xD800 ∨ 0xDFFF < c.toNat ∧ c.toNat < 0x110000 := c.valid
  have hd : d.toNat < 0xD800 ∨ 0xDFFF < d.toNat ∧ d.toNat < 0x110000 := d.valid
  unfold pointUnits at h
  have hboth : c.toNat = d.toNat ∧ units = others := by
    split at h <;> split at h <;> simp only [List.cons_append, List.nil_append, List.cons.injEq] at h
    · exact h
    · omega
    · omega
    · refine ⟨?_, h.2.2⟩
      omega
  exact ⟨Char.toNat_inj.1 hboth.1, hboth.2⟩

theorem codeUnits_injective {text other : List Char} (h : codeUnits text = codeUnits other) :
    text = other := by
  have hne (c : Char) (rest : List Char) : codeUnits (c :: rest) ≠ [] := by
    rw [codeUnits_cons, pointUnits]
    split <;> simp
  induction text generalizing other with
  | nil =>
      cases other with
      | nil => rfl
      | cons d rest => exact absurd h.symm (hne d rest)
  | cons c rest ih =>
      cases other with
      | nil => exact absurd h (hne c rest)
      | cons d tail =>
          rw [codeUnits_cons, codeUnits_cons] at h
          obtain ⟨rfl, hrest⟩ := pointUnits_append_inj h
          rw [ih hrest]

/-! ## Escapes -/

/-- A character that ends a line by itself, and so a literal that is not closed. -/
def isLineBreak (c : Char) : Bool :=
  c == '\n' || c == '\r'

/-- A character that ends a line of a program. The last two may stand in a literal. -/
def isLineEnd (c : Char) : Bool :=
  isLineBreak c || c == '\u2028' || c == '\u2029'

/-- The code unit of a letter after a backslash that stands for something else. -/
def letterUnit? : Char → Option Nat
  | 'b' => some 8
  | 't' => some 9
  | 'n' => some 10
  | 'v' => some 11
  | 'f' => some 12
  | 'r' => some 13
  | _ => none

/-- Read a code unit of so many hexadecimal digits. -/
def readUnit (count : Nat) (s : List Char) : Option (List Nat × List Char) :=
  if s.length < count then none
  else (hexNumber? (s.take count)).map fun unit => ([unit], s.drop count)

/-- Read a code point between braces, of which the first is already read. -/
def readPoint (s : List Char) : Option (List Nat × List Char) :=
  match s.takeWhile (· != '}'), s.dropWhile (· != '}') with
  | digit :: digits, _ :: rest =>
      (hexNumber? (digit :: digits)).bind fun point =>
        if point < 0x110000 then some (pointUnits point, rest) else none
  | _, _ => none

/-- Read what follows a backslash. A line may end there, and then nothing is meant. A zero is no
octal number, and there are no other numbers. -/
def readEscape (s : List Char) : Option (List Nat × List Char) :=
  match s with
  | [] => none
  | 'x' :: rest => readUnit 2 rest
  | 'u' :: '\x7b' :: rest => readPoint rest
  | 'u' :: rest => readUnit 4 rest
  | '\r' :: '\n' :: rest => some ([], rest)
  | c :: rest =>
      if isLineEnd c then some ([], rest)
      else if c.isDigit then
        if c == '0' && !(rest.head?.any Char.isDigit) then some ([0], rest) else none
      else some ((letterUnit? c).elim (pointUnits c.toNat) fun unit => [unit], rest)

theorem length_readUnit_le {count : Nat} {s rest : List Char} {units : List Nat}
    (h : readUnit count s = some (units, rest)) : rest.length ≤ s.length := by
  unfold readUnit at h
  split at h
  · cases h
  · obtain ⟨_, _, heq⟩ := Option.map_eq_some_iff.1 h
    cases heq
    rw [List.length_drop]
    omega

theorem length_readPoint_le {s rest : List Char} {units : List Nat}
    (h : readPoint s = some (units, rest)) : rest.length ≤ s.length := by
  unfold readPoint at h
  split at h
  · rename_i digit digits brace after _ hafter
    obtain ⟨_, _, heq⟩ := Option.bind_eq_some_iff.1 h
    split at heq
    · cases heq
      have hle := (List.dropWhile_suffix (· != '}') (l := s)).length_le
      rw [hafter, List.length_cons] at hle
      omega
    · cases heq
  · cases h

theorem length_of_readEscape {s rest : List Char} {units : List Nat}
    (h : readEscape s = some (units, rest)) : rest.length < s.length := by
  unfold readEscape at h
  split at h
  · cases h
  · have hle := length_readUnit_le h
    simp only [List.length_cons]
    omega
  · have hle := length_readPoint_le h
    simp only [List.length_cons]
    omega
  · have hle := length_readUnit_le h
    simp only [List.length_cons]
    omega
  · cases h
    simp only [List.length_cons]
    omega
  · split at h
    · cases h
      exact Nat.lt_succ_self _
    · split at h
      · split at h
        · cases h
          exact Nat.lt_succ_self _
        · cases h
      · cases h
        exact Nat.lt_succ_self _

/-- A backslash before a quote or another backslash takes its meaning away. -/
theorem readEscape_of_escaped {c : Char} (h : c = '\\' ∨ c = '"') (rest : List Char) :
    readEscape (c :: rest) = some (pointUnits c.toNat, rest) := by
  rcases h with rfl | rfl <;> rfl

/-! ## Literals -/

/-- Read the value of a literal, of which the first quote is already read. -/
def readClosing (s : List Char) : Option (List Nat × List Char) :=
  match s with
  | [] => none
  | '"' :: rest => some ([], rest)
  | '\\' :: rest =>
      match _h : readEscape rest with
      | none => none
      | some (units, rest) => (readClosing rest).map fun (value, last) => (units ++ value, last)
  | c :: rest =>
      if isLineBreak c then none
      else (readClosing rest).map fun (value, last) => (pointUnits c.toNat ++ value, last)
termination_by s.length
decreasing_by
  · have hlt := length_of_readEscape _h
    simp only [List.length_cons]
    omega
  · exact Nat.lt_succ_self _

/-- Read a literal between double quotes: its value, and what follows it. -/
def readLiteral : List Char → Option (List Nat × List Char)
  | '"' :: rest => readClosing rest
  | _ => none

theorem readClosing_escapeChars (text rest : List Char) :
    readClosing (escapeChars text ++ '"' :: rest) =
      if text.any isLineBreak then none else some (codeUnits text, rest) := by
  induction text with
  | nil =>
      rw [escapeChars, List.nil_append, readClosing]
      rfl
  | cons c text ih =>
      rw [escapeChars]
      split
      · rename_i hescaped
        have hbreak : isLineBreak c = false := by
          rcases hescaped with rfl | rfl <;> rfl
        rw [List.cons_append, List.cons_append, readClosing]
        split
        · rename_i hnone
          rw [readEscape_of_escaped hescaped] at hnone
          cases hnone
        · rename_i hsome
          rw [readEscape_of_escaped hescaped] at hsome
          cases hsome
          rw [ih, List.any_cons, hbreak, Bool.false_or]
          split <;> rfl
      · rename_i hplain
        rw [not_or] at hplain
        rw [List.cons_append, readClosing]
        · cases hbreak : isLineBreak c with
          | true => rw [List.any_cons, hbreak, Bool.true_or, if_pos rfl, if_pos rfl]
          | false =>
              rw [ih, List.any_cons, hbreak, Bool.false_or, if_neg Bool.false_ne_true]
              split <;> rfl
        · exact hplain.2
        · exact hplain.1

/-- A written string has the value of the string, if it has no line breaks, and otherwise none. -/
theorem readLiteral_quote (s : String) (rest : List Char) :
    readLiteral ((quote s).toList ++ rest) =
      if s.toList.any isLineBreak then none else some (codeUnits s.toList, rest) := by
  have hquote : (quote s).toList ++ rest = '"' :: (escapeChars s.toList ++ '"' :: rest) := by
    simp [quote, escape]
  rw [hquote, readLiteral, readClosing_escapeChars]

/-! ## Selections -/

/-- Read the property that the next step of a path selects: by the name after a dot, or by the value
of the literal between brackets. A name does not begin with a digit. -/
def readSelection : List Char → Option (List Nat × List Char)
  | '.' :: rest =>
      let name := rest.takeWhile isNameChar
      if name.head?.all Char.isDigit then none
      else some (codeUnits name, rest.dropWhile isNameChar)
  | '[' :: rest =>
      match readLiteral rest with
      | some (value, ']' :: last) => some (value, last)
      | _ => none
  | _ => none

/-- The step that selects a property, as it is written after the object. -/
def selectionText (name : String) : List Char :=
  if needsBracket name then '[' :: ((quote name).toList ++ [']']) else '.' :: name.toList

theorem render_property (object : Expr) (name : String) :
    (object.property name).render.toList = object.render.toList ++ selectionText name := by
  unfold Expr.property selectionText
  split <;> simp [Expr.render]

theorem not_isDigit_of_isIdentStart {c : Char} (h : isIdentStart c = true) : c.isDigit = false := by
  refine Bool.eq_false_iff.2 fun hdigit => ?_
  have hrange : 48 ≤ c.toNat ∧ c.toNat ≤ 57 := Char.isDigit_iff_toNat.1 hdigit
  simp only [isIdentStart, Bool.or_eq_true, beq_iff_eq] at h
  rcases h with (halpha | rfl) | rfl
  · rcases Bool.or_eq_true_iff.1 halpha with hupper | hlower
    · have hletter : 65 ≤ c.toNat := (isUpper_iff.1 hupper).1
      omega
    · rw [not_isLower_of_isDigit hdigit] at hlower
      cases hlower
  · cases hdigit
  · cases hdigit

/-- An identifier has no line breaks, and begins with no digit. -/
theorem IsIdentifier.plain {name : String} (h : IsIdentifier name) :
    name.toList.any isLineBreak = false ∧ name.toList.head?.all Char.isDigit = false := by
  constructor
  · rw [List.any_eq_false]
    intro c hc hbreak
    have hname := h.chars c hc
    unfold isLineBreak at hbreak
    rw [Bool.or_eq_true, beq_iff_eq, beq_iff_eq] at hbreak
    rcases hbreak with rfl | rfl <;> cases hname
  · obtain ⟨c, rest, hchars, hstart, _⟩ := h
    rw [hchars]
    exact not_isDigit_of_isIdentStart hstart

/-- The step to a property selects it, if its name has no line breaks, and otherwise cannot be read. -/
theorem readSelection_selectionText (name : String) {rest : List Char} (hrest : NoName rest) :
    readSelection (selectionText name ++ rest) =
      if name.toList.any isLineBreak then none else some (codeUnits name.toList, rest) := by
  unfold selectionText
  split
  · rw [List.cons_append, List.append_assoc, readSelection, readLiteral_quote]
    by_cases hbreak : name.toList.any isLineBreak = true
    · rw [if_pos hbreak, if_pos hbreak]
    · rw [if_neg hbreak, if_neg hbreak]
      rfl
  · rename_i hdot
    have hidentifier : IsIdentifier name := isIdentifier_iff.2 (by simpa using hdot)
    have hname := hidentifier.chars
    rw [List.cons_append, readSelection, List.takeWhile_append_of_pos hname,
      List.dropWhile_append_of_pos hname, takeWhile_noName hrest, dropWhile_noName hrest,
      List.append_nil, hidentifier.plain.1, hidentifier.plain.2]

/-- A written string is a literal, and its value is the string, exactly if the string has no line
breaks; and the step to the property of that name selects that property, and no other one, exactly
if there are none. -/
theorem literal_means_iff (object : Expr) (s : String) :
    (∀ (rest : List Char) (value : List Nat) (last : List Char),
      readLiteral ((quote s).toList ++ rest) = some (value, last) ↔
        s.toList.any isLineBreak = false ∧ value = codeUnits s.toList ∧ last = rest) ∧
    ∃ step, (object.property s).render.toList = object.render.toList ++ step ∧
      ∀ (rest : List Char), NoName rest → ∀ (other : String) (last : List Char),
        readSelection (step ++ rest) = some (codeUnits other.toList, last) ↔
          s.toList.any isLineBreak = false ∧ other = s ∧ last = rest := by
  constructor
  · intro rest value last
    rw [readLiteral_quote]
    by_cases hbreak : s.toList.any isLineBreak = true
    · simp [hbreak]
    · simp [hbreak, eq_comm]
  · refine ⟨selectionText s, render_property object s, fun rest hrest other last => ?_⟩
    have hsame : codeUnits s.toList = codeUnits other.toList ↔ other = s := by
      constructor
      · intro heq
        exact String.toList_injective (codeUnits_injective heq.symm)
      · intro heq
        rw [heq]
    rw [readSelection_selectionText s hrest]
    by_cases hbreak : s.toList.any isLineBreak = true
    · simp [hbreak]
    · simp [hbreak, hsame, eq_comm (a := rest)]

/-- A name with a quote and a backslash is read back in a guard. -/
theorem literal_means_quoted : NoName " !== undefined".toList ∧ ∃ step,
    ((Expr.ident "pet").property "born \\\"at\"").render.toList = "pet".toList ++ step ∧
      readSelection (step ++ " !== undefined".toList) =
        some (codeUnits "born \\\"at\"".toList, " !== undefined".toList) := by
  have hrest : NoName " !== undefined".toList := fun c hc => by cases hc; rfl
  obtain ⟨step, hrender, hselects⟩ := (literal_means_iff (.ident "pet") "born \\\"at\"").2
  refine ⟨hrest, step, ?_, (hselects _ hrest _ _).2 ⟨by decide, rfl, rfl⟩⟩
  rw [hrender, Expr.render]

/-- A name with a line feed is written on two lines, and neither is the literal read nor a property
selected. -/
theorem not_literal_broken :
    quote "shipped\nat" = "\"shipped\nat\"" ∧ readLiteral (quote "shipped\nat").toList = none ∧
      ((Expr.ident "order").property "shipped\nat").render = "order[\"shipped\nat\"]" ∧
        readSelection "[\"shipped\nat\"]".toList = none := by
  have hquote : readLiteral ((quote "shipped\nat").toList ++ []) = none := by
    rw [readLiteral_quote]
    rfl
  have hselection : readSelection (selectionText "shipped\nat" ++ []) = none := by
    rw [readSelection_selectionText _ fun c hc => by cases hc]
    rfl
  rw [List.append_nil] at hquote hselection
  exact ⟨rfl, hquote, rfl, hselection⟩

end DateReviver.TypeScript
