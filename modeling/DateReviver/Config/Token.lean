import DateReviver.Text.Hex

/-!
# Tokens of a configuration file

A configuration file is written in the part of TOML that its settings need: keys, equality signs,
strings in their four spellings, words, lists, comments and line ends. What else TOML can say
would be no setting, and has no token.
-/

namespace DateReviver.Config

open DateReviver.Text (hexChar?)

inductive Token where
  /-- A bare key, or `true` or `false`. -/
  | word (text : String)
  /-- A string on one line. -/
  | line (text : String)
  /-- A string between triple quotes. -/
  | block (text : String)
  | equals
  | beginList
  | endList
  | comma
  | newline

/-- A character that may stand in a text as it is: a tab, or one that is no control character. -/
def isPlain (c : Char) : Bool :=
  c == '\t' || (0x20 ≤ c.toNat && c.toNat ≤ 0x7E) || 0x80 ≤ c.toNat

def isWordChar (c : Char) : Bool :=
  c.isAlphanum || c == '_' || c == '-'

def escape? : Char → Option Char
  | 'b' => some '\x08'
  | 't' => some '\t'
  | 'n' => some '\n'
  | 'f' => some '\x0c'
  | 'r' => some '\r'
  | '"' => some '"'
  | '\\' => some '\\'
  | _ => none

/-- A character in front of the text that follows it. -/
def prepend (c : Char) (found : Option (List Char × List Char)) :
    Option (List Char × List Char) :=
  found.map fun (text, rest) => (c :: text, rest)

theorem of_prepend {c : Char} {found : Option (List Char × List Char)}
    {text rest : List Char} (h : prepend c found = some (text, rest)) :
    ∃ tail, found = some (tail, rest) := by
  obtain ⟨⟨tail, after⟩, hfound, h⟩ := Option.map_eq_some_iff.1 h
  cases h
  exact ⟨tail, hfound⟩

/-- The text up to a closing double quote, with escapes, and what follows the quote. -/
def scanBasic : List Char → Option (List Char × List Char)
  | '"' :: rest => some ([], rest)
  | '\\' :: 'u' :: a :: b :: c :: d :: rest => do
      let e ← hexChar? [a, b, c, d]
      prepend e (scanBasic rest)
  | '\\' :: 'U' :: a :: b :: c :: d :: e :: f :: g :: h :: rest => do
      let e ← hexChar? [a, b, c, d, e, f, g, h]
      prepend e (scanBasic rest)
  | '\\' :: e :: rest => do
      let c ← escape? e
      prepend c (scanBasic rest)
  | c :: rest => if isPlain c then prepend c (scanBasic rest) else none
  | [] => none

theorem length_of_scanBasic {s text rest : List Char} (h : scanBasic s = some (text, rest)) :
    rest.length ≤ s.length := by
  fun_induction scanBasic s generalizing text rest <;> try simp only [List.length_cons]
  all_goals grind [of_prepend, Option.bind_eq_some_iff]

/-- The text up to a closing single quote, and what follows the quote. -/
def scanLiteral : List Char → Option (List Char × List Char)
  | '\'' :: rest => some ([], rest)
  | c :: rest => if isPlain c then prepend c (scanLiteral rest) else none
  | [] => none

theorem length_of_scanLiteral {s text rest : List Char}
    (h : scanLiteral s = some (text, rest)) : rest.length ≤ s.length := by
  fun_induction scanLiteral s generalizing text rest <;> try simp only [List.length_cons]
  all_goals grind [of_prepend]

inductive Continuation where
  | text
  /-- A backslash has been passed, and blanks: the line must end. -/
  | toLineEnd
  /-- A line has ended after a backslash: blanks and line ends are dropped. -/
  | dropping

/-- The text up to three closing double quotes, with escapes, and what follows the quotes. Up to
two more quotes at the end belong to the text. -/
def scanBasicBlock : Continuation → List Char → Option (List Char × List Char)
  | .toLineEnd, '\n' :: rest => scanBasicBlock .dropping rest
  | .toLineEnd, '\r' :: '\n' :: rest => scanBasicBlock .dropping rest
  | .toLineEnd, c :: rest =>
      if c = ' ' ∨ c = '\t' then scanBasicBlock .toLineEnd rest else none
  | .dropping, '\n' :: rest => scanBasicBlock .dropping rest
  | .dropping, '\r' :: '\n' :: rest => scanBasicBlock .dropping rest
  | .dropping, ' ' :: rest => scanBasicBlock .dropping rest
  | .dropping, '\t' :: rest => scanBasicBlock .dropping rest
  | _, '"' :: '"' :: '"' :: '"' :: '"' :: rest => some (['"', '"'], rest)
  | _, '"' :: '"' :: '"' :: '"' :: rest => some (['"'], rest)
  | _, '"' :: '"' :: '"' :: rest => some ([], rest)
  | _, '\n' :: rest => prepend '\n' (scanBasicBlock .text rest)
  | _, '\r' :: '\n' :: rest => prepend '\n' (scanBasicBlock .text rest)
  | _, '\\' :: '\n' :: rest => scanBasicBlock .dropping rest
  | _, '\\' :: '\r' :: '\n' :: rest => scanBasicBlock .dropping rest
  | _, '\\' :: ' ' :: rest => scanBasicBlock .toLineEnd rest
  | _, '\\' :: '\t' :: rest => scanBasicBlock .toLineEnd rest
  | _, '\\' :: 'u' :: a :: b :: c :: d :: rest => do
      let e ← hexChar? [a, b, c, d]
      prepend e (scanBasicBlock .text rest)
  | _, '\\' :: 'U' :: a :: b :: c :: d :: e :: f :: g :: h :: rest => do
      let e ← hexChar? [a, b, c, d, e, f, g, h]
      prepend e (scanBasicBlock .text rest)
  | _, '\\' :: e :: rest => do
      let c ← escape? e
      prepend c (scanBasicBlock .text rest)
  | _, c :: rest => if isPlain c then prepend c (scanBasicBlock .text rest) else none
  | _, [] => none

theorem length_of_scanBasicBlock {mode : Continuation} {s text rest : List Char}
    (h : scanBasicBlock mode s = some (text, rest)) : rest.length ≤ s.length := by
  fun_induction scanBasicBlock mode s generalizing text rest <;> try simp only [List.length_cons]
  all_goals grind [of_prepend, Option.bind_eq_some_iff]

/-- The text up to three closing single quotes, and what follows the quotes. Up to two more quotes
at the end belong to the text. -/
def scanLiteralBlock : List Char → Option (List Char × List Char)
  | '\'' :: '\'' :: '\'' :: '\'' :: '\'' :: rest => some (['\'', '\''], rest)
  | '\'' :: '\'' :: '\'' :: '\'' :: rest => some (['\''], rest)
  | '\'' :: '\'' :: '\'' :: rest => some ([], rest)
  | '\n' :: rest => prepend '\n' (scanLiteralBlock rest)
  | '\r' :: '\n' :: rest => prepend '\n' (scanLiteralBlock rest)
  | c :: rest => if isPlain c then prepend c (scanLiteralBlock rest) else none
  | [] => none

theorem length_of_scanLiteralBlock {s text rest : List Char}
    (h : scanLiteralBlock s = some (text, rest)) : rest.length ≤ s.length := by
  fun_induction scanLiteralBlock s generalizing text rest <;> try simp only [List.length_cons]
  all_goals grind [of_prepend]

/-- What follows a line end at the front, if there is one. -/
def dropLineEnd : List Char → List Char
  | '\n' :: rest => rest
  | '\r' :: '\n' :: rest => rest
  | s => s

theorem length_dropLineEnd_le (s : List Char) : (dropLineEnd s).length ≤ s.length := by
  unfold dropLineEnd
  grind

def stringToken (kind : String → Token) (found : Option (List Char × List Char)) :
    Option (Token × List Char) :=
  found.map fun (text, rest) => (kind (String.ofList text), rest)

theorem of_stringToken {kind : String → Token} {found : Option (List Char × List Char)}
    {token : Token} {rest : List Char} (h : stringToken kind found = some (token, rest)) :
    ∃ text, found = some (text, rest) := by
  obtain ⟨⟨text, after⟩, hfound, h⟩ := Option.map_eq_some_iff.1 h
  cases h
  exact ⟨text, hfound⟩

def scanToken : List Char → Option (Token × List Char)
  | '=' :: rest => some (.equals, rest)
  | '[' :: rest => some (.beginList, rest)
  | ']' :: rest => some (.endList, rest)
  | ',' :: rest => some (.comma, rest)
  | '\n' :: rest => some (.newline, rest)
  | '\r' :: '\n' :: rest => some (.newline, rest)
  | '"' :: '"' :: '"' :: rest => stringToken .block (scanBasicBlock .text (dropLineEnd rest))
  | '\'' :: '\'' :: '\'' :: rest => stringToken .block (scanLiteralBlock (dropLineEnd rest))
  | '"' :: rest => stringToken .line (scanBasic rest)
  | '\'' :: rest => stringToken .line (scanLiteral rest)
  | s =>
      match s.takeWhile isWordChar with
      | [] => none
      | word => some (.word (String.ofList word), s.dropWhile isWordChar)

theorem length_of_scanToken {s rest : List Char} {token : Token}
    (h : scanToken s = some (token, rest)) : rest.length < s.length := by
  unfold scanToken at h
  split at h
  · cases h; simp
  · cases h; simp
  · cases h; simp
  · cases h; simp
  · cases h; simp
  · cases h; simp only [List.length_cons]; omega
  · rename_i tail
    obtain ⟨text, htext⟩ := of_stringToken h
    have h1 := length_of_scanBasicBlock htext
    have h2 := length_dropLineEnd_le tail
    simp only [List.length_cons]
    omega
  · rename_i tail
    obtain ⟨text, htext⟩ := of_stringToken h
    have h1 := length_of_scanLiteralBlock htext
    have h2 := length_dropLineEnd_le tail
    simp only [List.length_cons]
    omega
  · obtain ⟨text, htext⟩ := of_stringToken h
    exact Nat.lt_succ_of_le (length_of_scanBasic htext)
  · obtain ⟨text, htext⟩ := of_stringToken h
    exact Nat.lt_succ_of_le (length_of_scanLiteral htext)
  · split at h
    · cases h
    · rename_i hword
      cases h
      have hsplit : (s.takeWhile isWordChar ++ s.dropWhile isWordChar).length = s.length :=
        congrArg List.length List.takeWhile_append_dropWhile
      rw [List.length_append] at hsplit
      have hpos := List.length_pos_iff.2 hword
      omega

/-- The lexemes of a text, if it consists of lexemes, blanks and comments. A comment ends before the
first character that cannot stand in it. -/
def tokens? (s : List Char) : Option (List Token) :=
  match s with
  | [] => some []
  | c :: rest =>
      if c = ' ' ∨ c = '\t' then tokens? rest
      else if c = '#' then tokens? (rest.dropWhile isPlain)
      else
        match _h : scanToken (c :: rest) with
        | none => none
        | some (token, after) => (tokens? after).map (token :: ·)
termination_by s.length
decreasing_by
  · simp
  · exact Nat.lt_succ_of_le (List.dropWhile_sublist isPlain).length_le
  · exact length_of_scanToken _h

end DateReviver.Config
