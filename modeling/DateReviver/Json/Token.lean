import DateReviver.Json.Numeral
import DateReviver.Text.Digits
import DateReviver.Text.Hex

/-!
# JSON tokens

The lexemes of a JSON text. A string is kept with what its escapes say: it has no text if they
leave half of a surrogate pair alone.
-/

namespace DateReviver.Json

open Text (takeDigits ofDigits length_takeDigits_le length_takeDigits_lt)

inductive Token where
  | beginList
  | endList
  | beginRecord
  | endRecord
  | comma
  | colon
  | null
  | bool (value : Bool)
  | number (value : Numeral)
  /-- A string, with its text if it has one. -/
  | text (value : Option String)

/-- A piece of a string: a character, or a unit of UTF-16 given by an escape. -/
inductive Piece where
  | char (c : Char)
  | unit (code : Nat)

def shortEscape? : Char → Option Char
  | '"' => some '"'
  | '\\' => some '\\'
  | '/' => some '/'
  | 'b' => some '\x08'
  | 'f' => some '\x0c'
  | 'n' => some '\n'
  | 'r' => some '\r'
  | 't' => some '\t'
  | _ => none

/-- The pieces of a string after its opening quote, and what follows its closing quote. Control
characters cannot stand in it. -/
def scanText : List Char → Option (List Piece × List Char)
  | [] => none
  | '"' :: rest => some ([], rest)
  | '\\' :: 'u' :: a :: b :: c :: d :: rest => do
      let code ← Text.hexNumber? [a, b, c, d]
      let (pieces, rest) ← scanText rest
      return (.unit code :: pieces, rest)
  | '\\' :: e :: rest => do
      let c ← shortEscape? e
      let (pieces, rest) ← scanText rest
      return (.char c :: pieces, rest)
  | c :: rest =>
      if c.toNat < 0x20 ∨ c = '\\' then none
      else do
        let (pieces, rest) ← scanText rest
        return (.char c :: pieces, rest)

/-- The characters that pieces stand for. Two units make one character if they are a surrogate
pair; half of a pair makes none. -/
def joinPieces : List Piece → Option (List Char)
  | [] => some []
  | .char c :: rest => (joinPieces rest).map (c :: ·)
  | .unit high :: .unit low :: rest =>
      if 0xD800 ≤ high ∧ high < 0xDC00 then
        if 0xDC00 ≤ low ∧ low < 0xE000 then
          (joinPieces rest).map
            (Char.ofNat (0x10000 + (high - 0xD800) * 0x400 + (low - 0xDC00)) :: ·)
        else none
      else if 0xDC00 ≤ high ∧ high < 0xE000 then none
      else (joinPieces (.unit low :: rest)).map (Char.ofNat high :: ·)
  | .unit code :: rest =>
      if 0xD800 ≤ code ∧ code < 0xE000 then none
      else (joinPieces rest).map (Char.ofNat code :: ·)

/-- The fraction of a numeral, if it has one. A point needs a digit after it. -/
def scanFraction : List Char → Option (List Nat × List Char)
  | '.' :: rest =>
      match takeDigits rest with
      | ([], _) => none
      | found => some found
  | rest => some ([], rest)

def scanExponent (s : List Char) : Option (Int × List Char) :=
  match s with
  | c :: rest =>
      if c = 'e' ∨ c = 'E' then
        let (negative, rest) :=
          match rest with
          | '-' :: rest => (true, rest)
          | '+' :: rest => (false, rest)
          | rest => (false, rest)
        match takeDigits rest with
        | ([], _) => none
        | (digits, rest) =>
            some (if negative then -(ofDigits digits : Int) else ofDigits digits, rest)
      else some (0, s)
  | [] => some (0, [])

/-- The digits before the point. A zero stands alone. -/
def scanWhole : List Char → Option (List Nat × List Char)
  | '0' :: rest => some ([0], rest)
  | s =>
      match takeDigits s with
      | ([], _) => none
      | found => some found

def scanNumeral (s : List Char) : Option (Numeral × List Char) := do
  let (whole, rest) ← scanWhole (match s with | '-' :: rest => rest | rest => rest)
  let (fraction, rest) ← scanFraction rest
  let (exponent, rest) ← scanExponent rest
  return (⟨whole, fraction, exponent⟩, rest)

def scanToken : List Char → Option (Token × List Char)
  | '[' :: rest => some (.beginList, rest)
  | ']' :: rest => some (.endList, rest)
  | '\x7b' :: rest => some (.beginRecord, rest)
  | '\x7d' :: rest => some (.endRecord, rest)
  | ',' :: rest => some (.comma, rest)
  | ':' :: rest => some (.colon, rest)
  | 'n' :: 'u' :: 'l' :: 'l' :: rest => some (.null, rest)
  | 't' :: 'r' :: 'u' :: 'e' :: rest => some (.bool true, rest)
  | 'f' :: 'a' :: 'l' :: 's' :: 'e' :: rest => some (.bool false, rest)
  | '"' :: rest => do
      let (pieces, rest) ← scanText rest
      return (.text ((joinPieces pieces).map String.ofList), rest)
  | s => do
      let (numeral, rest) ← scanNumeral s
      return (.number numeral, rest)

def isSpace (c : Char) : Bool :=
  c == ' ' || c == '\t' || c == '\n' || c == '\r'

section Length

theorem length_of_scanText {s rest : List Char} {pieces : List Piece}
    (h : scanText s = some (pieces, rest)) : rest.length < s.length := by
  fun_induction scanText s generalizing pieces rest with
  | case1 => cases h
  | case2 => cases h; simp
  | case3 a b c d tail ih =>
      simp only [Option.bind_eq_bind, Option.bind_eq_some_iff] at h
      obtain ⟨_, _, ⟨_, _⟩, hrest, h⟩ := h
      cases h
      have := ih hrest
      simp only [List.length_cons]
      omega
  | case4 e tail _ ih =>
      simp only [Option.bind_eq_bind, Option.bind_eq_some_iff] at h
      obtain ⟨_, _, ⟨_, _⟩, hrest, h⟩ := h
      cases h
      have := ih hrest
      simp only [List.length_cons]
      omega
  | case5 => simp at h
  | case6 =>
      rename_i ih
      simp only [Option.bind_eq_bind, Option.bind_eq_some_iff] at h
      obtain ⟨⟨_, _⟩, hrest, h⟩ := h
      cases h
      have := ih hrest
      simp only [List.length_cons]
      omega

theorem length_of_scanWhole {s rest : List Char} {digits : List Nat}
    (h : scanWhole s = some (digits, rest)) : rest.length < s.length := by
  unfold scanWhole at h
  split at h
  · cases h; simp
  · split at h
    · cases h
    · rename_i hne
      have hs : takeDigits s = (digits, rest) := Option.some.inj h
      exact length_takeDigits_lt hs fun hnil => hne rest (by rw [hs, hnil])

theorem length_of_scanFraction {s rest : List Char} {digits : List Nat}
    (h : scanFraction s = some (digits, rest)) : rest.length ≤ s.length := by
  unfold scanFraction at h
  split at h
  · split at h
    · cases h
    · rename_i tail _ _
      cases h
      exact Nat.le_succ_of_le (length_takeDigits_le tail)
  · cases h; simp

theorem length_of_scanExponent {s rest : List Char} {exponent : Int}
    (h : scanExponent s = some (exponent, rest)) : rest.length ≤ s.length := by
  unfold scanExponent at h
  split at h
  · rename_i c tail
    split at h
    · split at h
      rename_i unsigned hsign
      have hle : unsigned.length ≤ tail.length := by
        split at hsign <;> cases hsign <;> simp
      split at h
      · cases h
      · rename_i digits rest' _ hdigits
        cases h
        have := length_takeDigits_le unsigned
        rw [hdigits] at this
        simp only [List.length_cons]
        exact Nat.le_succ_of_le (Nat.le_trans this hle)
    · cases h; simp
  · cases h; simp

theorem length_of_scanNumeral {s rest : List Char} {numeral : Numeral}
    (h : scanNumeral s = some (numeral, rest)) : rest.length < s.length := by
  unfold scanNumeral at h
  simp only [Option.bind_eq_bind, Option.bind_eq_some_iff] at h
  obtain ⟨⟨_, _⟩, hwhole, ⟨_, _⟩, hfraction, ⟨_, _⟩, hexponent, h⟩ := h
  cases h
  have h1 := length_of_scanWhole hwhole
  have h2 := length_of_scanFraction hfraction
  have h3 := length_of_scanExponent hexponent
  simp only at h2 h3 ⊢
  split at h1
  · simp only [List.length_cons]
    omega
  · omega

theorem length_of_scanToken {s rest : List Char} {token : Token}
    (h : scanToken s = some (token, rest)) : rest.length < s.length := by
  unfold scanToken at h
  split at h
  all_goals try (cases h; simp; done)
  all_goals try (cases h; simp only [List.length_cons]; omega)
  · simp only [Option.bind_eq_bind, Option.bind_eq_some_iff] at h
    obtain ⟨⟨_, _⟩, hrest, h⟩ := h
    cases h
    exact Nat.lt_succ_of_lt (length_of_scanText hrest)
  · simp only [Option.bind_eq_bind, Option.bind_eq_some_iff] at h
    obtain ⟨⟨_, _⟩, hrest, h⟩ := h
    cases h
    exact length_of_scanNumeral hrest

end Length

/-- The lexemes of a text, if it consists of lexemes and spaces. -/
def tokens? (s : List Char) : Option (List Token) :=
  match s with
  | [] => some []
  | c :: rest =>
      if isSpace c then tokens? rest
      else
        match _h : scanToken (c :: rest) with
        | none => none
        | some (token, rest) => (tokens? rest).map (token :: ·)
termination_by s.length
decreasing_by
  · simp
  · exact length_of_scanToken _h

end DateReviver.Json
