import DateReviver.Json.Node
import Mathlib.Data.List.TakeWhile

/-!
# Spaces between the lexemes of a JSON text

A scanner takes its lexeme from the front of a text, and would take the same one before any other rest,
except that a numeral must not be lengthened by what follows it. In a text that is a JSON tree only
punctuation follows a numeral. So its lexemes may be spaced in any way.
-/

namespace DateReviver.Json

open Text (takeDigits ofDigits)

/-- A scanner takes its lexeme from the front of a text, and takes it from any text in which it is
followed by what may follow it. -/
def Takes {α : Type} (scan : List Char → Option (α × List Char)) (follows : List Char → Prop)
    (lexeme : List Char) (a : α) : Prop :=
  ∀ rest, follows rest → scan (lexeme ++ rest) = some (a, rest)

/-! ## Strings -/

theorem scanText_takes {s rest : List Char} {pieces : List Piece}
    (h : scanText s = some (pieces, rest)) :
    ∃ lexeme, s = lexeme ++ rest ∧ Takes scanText (fun _ => True) lexeme pieces := by
  fun_induction scanText s generalizing pieces rest with
  | case1 => cases h
  | case2 tail =>
      cases h
      exact ⟨['"'], rfl, fun _ _ => rfl⟩
  | case3 a b c d tail ih =>
      simp only [Option.bind_eq_bind, Option.bind_eq_some_iff] at h
      obtain ⟨code, hcode, ⟨more, after⟩, hmore, h⟩ := h
      cases h
      obtain ⟨lexeme, rfl, htakes⟩ := ih hmore
      refine ⟨'\\' :: 'u' :: a :: b :: c :: d :: lexeme, rfl, fun other _ => ?_⟩
      simp [scanText, hcode, htakes other trivial]
  | case4 e tail hne ih =>
      simp only [Option.bind_eq_bind, Option.bind_eq_some_iff] at h
      obtain ⟨c, hescape, ⟨more, after⟩, hmore, h⟩ := h
      cases h
      obtain ⟨lexeme, rfl, htakes⟩ := ih hmore
      refine ⟨'\\' :: e :: lexeme, rfl, fun other _ => ?_⟩
      have hunit : e ≠ 'u' := by
        intro heq
        rw [heq] at hescape
        cases hescape
      have hscan := htakes other trivial
      rw [List.cons_append, List.cons_append, scanText]
      · simp [hescape, hscan]
      · intro _ _ _ _ _ heq _
        exact hunit heq
  | case5 => simp at h
  | case6 c tail hquote hunits hescapes hplain ih =>
      simp only [Option.bind_eq_bind, Option.bind_eq_some_iff] at h
      obtain ⟨⟨more, after⟩, hmore, h⟩ := h
      cases h
      obtain ⟨lexeme, rfl, htakes⟩ := ih hmore
      refine ⟨c :: lexeme, rfl, fun other _ => ?_⟩
      have hscan := htakes other trivial
      rw [List.cons_append, scanText]
      · simp [hplain, hscan]
      · exact hquote
      · exact fun _ _ _ _ _ heq _ => hplain (.inr heq)
      · exact fun _ _ heq _ => hplain (.inr heq)

/-! ## Numerals -/

/-- A text does not start with such a character. -/
def Avoids (p : Char → Prop) (s : List Char) : Prop :=
  ∀ c, s.head? = some c → ¬ p c

theorem avoids_nil {p : Char → Prop} : Avoids p [] := by
  intro c h
  cases h

theorem avoids_cons {p : Char → Prop} {c : Char} {s : List Char} :
    Avoids p (c :: s) ↔ ¬ p c := by
  simp [Avoids]

/-- A lexeme in front of a text keeps a character away as the text does, or by its own first one. -/
theorem Avoids.append {p : Char → Prop} {lexeme rest : List Char}
    (hlexeme : lexeme ≠ [] → Avoids p lexeme) (hrest : Avoids p rest) :
    Avoids p (lexeme ++ rest) := by
  cases lexeme with
  | nil => exact hrest
  | cons c more => exact avoids_cons.2 (avoids_cons.1 (hlexeme (List.cons_ne_nil c more)))

/-- A character that takes a numeral further. -/
def Lengthens (c : Char) : Prop :=
  c.isDigit = true ∨ c = '.' ∨ c = 'e' ∨ c = 'E'

theorem takeDigits_takes {s rest : List Char} {digits : List Nat}
    (h : takeDigits s = (digits, rest)) :
    ∃ lexeme, s = lexeme ++ rest ∧ (∀ c ∈ lexeme, c.isDigit = true) ∧
      (digits = [] ↔ lexeme = []) ∧
      ∀ other, Avoids (fun c => c.isDigit = true) other →
        takeDigits (lexeme ++ other) = (digits, other) := by
  obtain ⟨rfl, rfl⟩ := Prod.mk.inj h
  have hdigits : ∀ c ∈ s.takeWhile Char.isDigit, c.isDigit = true := fun c => List.mem_takeWhile_imp
  refine ⟨s.takeWhile Char.isDigit, List.takeWhile_append_dropWhile.symm, hdigits, List.map_eq_nil_iff,
    fun other hother => ?_⟩
  have hstop : other.takeWhile Char.isDigit = [] ∧ other.dropWhile Char.isDigit = other := by
    cases other with
    | nil => exact ⟨rfl, rfl⟩
    | cons c more =>
        have hc := avoids_cons.1 hother
        rw [List.takeWhile_cons_of_neg hc, List.dropWhile_cons_of_neg hc]
        exact ⟨rfl, rfl⟩
  rw [takeDigits, List.takeWhile_append_of_pos hdigits, List.dropWhile_append_of_pos hdigits,
    hstop.1, hstop.2, List.append_nil]

theorem scanWhole_takes {s rest : List Char} {digits : List Nat}
    (h : scanWhole s = some (digits, rest)) :
    ∃ c lexeme, s = c :: lexeme ++ rest ∧ c.isDigit = true ∧
      Takes scanWhole (Avoids fun c => c.isDigit = true) (c :: lexeme) digits := by
  unfold scanWhole at h
  split at h
  · cases h
    exact ⟨'0', [], rfl, rfl, fun _ _ => rfl⟩
  · rename_i hzero
    split at h
    · cases h
    · rename_i hfound
      obtain ⟨lexeme, rfl, hdigits, hnil, htakes⟩ := takeDigits_takes (Option.some.inj h)
      cases lexeme with
      | nil => exact absurd (Option.some.inj h) fun hnone => hfound rest (by rw [hnone, hnil.2 rfl])
      | cons c lexeme =>
          refine ⟨c, lexeme, rfl, hdigits c List.mem_cons_self, fun other hother => ?_⟩
          have hother := htakes other hother
          unfold scanWhole
          split
          · rename_i tail heq
            cases heq
            exact absurd rfl (hzero (lexeme ++ rest))
          · rw [hother]
            split
            · rename_i hnone
              have hempty := hnil.1 (Prod.mk.inj hnone).1
              cases hempty
            · rfl

theorem scanFraction_takes {s rest : List Char} {digits : List Nat}
    (h : scanFraction s = some (digits, rest)) :
    ∃ lexeme, s = lexeme ++ rest ∧ (lexeme ≠ [] → lexeme.head? = some '.') ∧
      Takes scanFraction (Avoids fun c => c.isDigit = true ∨ c = '.') lexeme digits := by
  unfold scanFraction at h
  split at h
  · rename_i tail
    split at h
    · cases h
    · rename_i hfound
      obtain ⟨lexeme, rfl, _, _, htakes⟩ := takeDigits_takes (Option.some.inj h)
      refine ⟨'.' :: lexeme, rfl, fun _ => rfl, fun other hother => ?_⟩
      have htaken := htakes other fun c hc hdigit => hother c hc (.inl hdigit)
      rw [List.cons_append, scanFraction, htaken]
      split
      · rename_i hnone
        cases hnone
        have hown := Option.some.inj h
        exact absurd hown (hfound rest)
      · rfl
  · cases h
    refine ⟨[], rfl, fun habsurd => absurd rfl habsurd, fun other hother => ?_⟩
    rw [List.nil_append, scanFraction]
    intro tail heq
    rw [heq] at hother
    exact avoids_cons.1 hother (.inr rfl)

/-- The sign of an exponent, and what follows it. -/
def takeSign : List Char → Bool × List Char
  | '-' :: rest => (true, rest)
  | '+' :: rest => (false, rest)
  | rest => (false, rest)

theorem scanExponent_cons {c : Char} (hexp : c = 'e' ∨ c = 'E') (tail : List Char) :
    scanExponent (c :: tail) =
      match takeDigits (takeSign tail).2 with
      | ([], _) => none
      | (digits, rest) =>
          some (if (takeSign tail).1 then -(ofDigits digits : Int) else ofDigits digits, rest) := by
  have hsplit : scanExponent (c :: tail) =
      if c = 'e' ∨ c = 'E' then
        match takeDigits (takeSign tail).2 with
        | ([], _) => none
        | (digits, rest) =>
            some (if (takeSign tail).1 then -(ofDigits digits : Int) else ofDigits digits, rest)
      else some (0, c :: tail) := rfl
  rw [hsplit, if_pos hexp]

theorem scanExponent_of_avoids {s : List Char} (h : Avoids (fun c => c = 'e' ∨ c = 'E') s) :
    scanExponent s = some (0, s) := by
  cases s with
  | nil => rfl
  | cons c tail =>
      unfold scanExponent
      dsimp only
      rw [if_neg (avoids_cons.1 h)]

theorem takeSign_takes (s : List Char) : ∃ lexeme, s = lexeme ++ (takeSign s).2 ∧
    ∀ other, Avoids (fun c => c = '-' ∨ c = '+') other →
      takeSign (lexeme ++ other) = ((takeSign s).1, other) := by
  unfold takeSign
  split
  · exact ⟨['-'], rfl, fun _ _ => rfl⟩
  · exact ⟨['+'], rfl, fun _ _ => rfl⟩
  · refine ⟨[], rfl, fun other hother => ?_⟩
    dsimp only [List.nil_append]
    split
    · exact absurd (.inl rfl) (avoids_cons.1 hother)
    · exact absurd (.inr rfl) (avoids_cons.1 hother)
    · rfl

theorem avoids_sign_of_digits {lexeme : List Char} (hne : lexeme ≠ [])
    (hdigits : ∀ c ∈ lexeme, c.isDigit = true) (other : List Char) :
    Avoids (fun c => c = '-' ∨ c = '+') (lexeme ++ other) := by
  cases lexeme with
  | nil => exact absurd rfl hne
  | cons c more =>
      refine avoids_cons.2 fun hsign => ?_
      have hdigit := hdigits c List.mem_cons_self
      rcases hsign with rfl | rfl <;> cases hdigit

theorem scanExponent_takes {s rest : List Char} {exponent : Int}
    (h : scanExponent s = some (exponent, rest)) :
    ∃ lexeme, s = lexeme ++ rest ∧
      (lexeme ≠ [] → lexeme.head? = some 'e' ∨ lexeme.head? = some 'E') ∧
      Takes scanExponent (Avoids fun c => c.isDigit = true ∨ c = 'e' ∨ c = 'E') lexeme exponent := by
  by_cases hexp : Avoids (fun c => c = 'e' ∨ c = 'E') s
  · rw [scanExponent_of_avoids hexp] at h
    cases h
    refine ⟨[], rfl, fun habsurd => absurd rfl habsurd, fun other hother => ?_⟩
    exact scanExponent_of_avoids fun c hc hletter => hother c hc (.inr hletter)
  · cases s with
    | nil => exact absurd avoids_nil hexp
    | cons c tail =>
        rw [avoids_cons, not_not] at hexp
        rw [scanExponent_cons hexp] at h
        obtain ⟨sign, htail, hsign⟩ := takeSign_takes tail
        split at h
        · cases h
        · rename_i digits after hfound hdigits
          obtain ⟨lexeme, hunsigned, hall, hnil, htakes⟩ := takeDigits_takes hdigits
          cases h
          refine ⟨c :: sign ++ lexeme, ?_, ?_, fun other hother => ?_⟩
          · rw [htail, hunsigned]
            simp
          · intro _
            rcases hexp with rfl | rfl
            · exact .inl rfl
            · exact .inr rfl
          · have htaken := htakes other fun c hc hdigit => hother c hc (.inl hdigit)
            have hsigned := hsign _ (avoids_sign_of_digits (fun h => hfound (hnil.2 h)) hall other)
            rw [List.append_assoc, List.cons_append, scanExponent_cons hexp, hsigned]
            dsimp only
            rw [htaken]
            split
            · rename_i hnone
              exact absurd (Prod.mk.inj hnone).1 hfound
            · rename_i heq
              obtain ⟨rfl, rfl⟩ := Prod.mk.inj heq
              rfl

/-- A numeral without a sign. -/
def scanUnsigned (s : List Char) : Option (Numeral × List Char) := do
  let (whole, rest) ← scanWhole s
  let (fraction, rest) ← scanFraction rest
  let (exponent, rest) ← scanExponent rest
  return (⟨whole, fraction, exponent⟩, rest)

theorem scanNumeral_minus (s : List Char) : scanNumeral ('-' :: s) = scanUnsigned s := rfl

theorem scanNumeral_of_avoids {s : List Char} (h : Avoids (· = '-') s) :
    scanNumeral s = scanUnsigned s := by
  unfold scanNumeral
  split
  · exact absurd rfl (h '-' rfl)
  · rfl

/-- A letter or a point in front keeps digits away, and where there is none the rest does. -/
theorem Avoids.of_lengthens {p : Char → Prop} {s : List Char} (h : Avoids Lengthens s)
    (hp : ∀ c, p c → Lengthens c) : Avoids p s :=
  fun c hc hown => h c hc (hp c hown)

theorem scanUnsigned_takes {s rest : List Char} {n : Numeral}
    (h : scanUnsigned s = some (n, rest)) :
    ∃ c lexeme, s = c :: lexeme ++ rest ∧ c.isDigit = true ∧
      Takes scanUnsigned (Avoids Lengthens) (c :: lexeme) n := by
  simp only [scanUnsigned, Option.bind_eq_bind, Option.bind_eq_some_iff] at h
  obtain ⟨⟨whole, rest₁⟩, hwhole, ⟨fraction, rest₂⟩, hfraction, ⟨exponent, rest₃⟩, hexponent, h⟩ := h
  cases h
  obtain ⟨c, lexeme₁, rfl, hdigit, htakes₁⟩ := scanWhole_takes hwhole
  obtain ⟨lexeme₂, rfl, hpoint, htakes₂⟩ := scanFraction_takes hfraction
  obtain ⟨lexeme₃, rfl, hletter, htakes₃⟩ := scanExponent_takes hexponent
  refine ⟨c, lexeme₁ ++ lexeme₂ ++ lexeme₃, by simp, hdigit, fun other hother => ?_⟩
  have hexponentFollows : Avoids (fun c => c.isDigit = true ∨ c = 'e' ∨ c = 'E') other :=
    hother.of_lengthens fun c hc => hc.elim .inl fun hletters => .inr (.inr hletters)
  have hfractionFollows : Avoids (fun c => c.isDigit = true ∨ c = '.') (lexeme₃ ++ other) := by
    refine .append (fun hne c hc hown => ?_) (hother.of_lengthens fun c hc => ?_)
    · rcases hletter hne with hhead | hhead
      all_goals
        rw [hhead] at hc
        cases hc
        simp at hown
    · exact hc.elim .inl fun hp => .inr (.inl hp)
  have hwholeFollows : Avoids (fun c => c.isDigit = true) (lexeme₂ ++ (lexeme₃ ++ other)) := by
    refine .append (fun hne c hc hown => ?_) fun c hc hown => hfractionFollows c hc (.inl hown)
    rw [hpoint hne] at hc
    cases hc
    cases hown
  have hall : c :: (lexeme₁ ++ lexeme₂ ++ lexeme₃) ++ other =
      c :: lexeme₁ ++ (lexeme₂ ++ (lexeme₃ ++ other)) := by simp
  rw [hall, scanUnsigned, htakes₁ _ hwholeFollows]
  simp [htakes₂ _ hfractionFollows, htakes₃ _ hexponentFollows]

theorem scanNumeral_takes {s rest : List Char} {n : Numeral} (h : scanNumeral s = some (n, rest)) :
    ∃ c lexeme, s = c :: lexeme ++ rest ∧ (c = '-' ∨ c.isDigit = true) ∧
      Takes scanNumeral (Avoids Lengthens) (c :: lexeme) n := by
  by_cases hminus : Avoids (· = '-') s
  · rw [scanNumeral_of_avoids hminus] at h
    obtain ⟨c, lexeme, rfl, hdigit, htakes⟩ := scanUnsigned_takes h
    refine ⟨c, lexeme, rfl, .inr hdigit, fun other hother => ?_⟩
    have hfirst : Avoids (· = '-') (c :: lexeme ++ other) := fun first hhead => hminus first hhead
    rw [scanNumeral_of_avoids hfirst]
    exact htakes other hother
  · cases s with
    | nil => exact absurd avoids_nil hminus
    | cons first tail =>
        rw [avoids_cons, not_not] at hminus
        subst hminus
        rw [scanNumeral_minus] at h
        obtain ⟨c, lexeme, rfl, _, htakes⟩ := scanUnsigned_takes h
        exact ⟨'-', c :: lexeme, rfl, .inl rfl, fun other hother => htakes other hother⟩

/-! ## Lexemes -/

/-- What may follow the lexeme of a token. -/
def Token.Follows : Token → List Char → Prop
  | .number _, rest => Avoids Lengthens rest
  | _, _ => True

theorem scanToken_of_numeral {c : Char} (h : c = '-' ∨ c.isDigit = true) (tail : List Char) :
    scanToken (c :: tail) = (scanNumeral (c :: tail)).bind fun (n, rest) => some (.number n, rest) := by
  unfold scanToken
  split
  all_goals try
    rename_i heq
    cases heq
    simp at h
  rfl

theorem scanToken_takes {s rest : List Char} {token : Token}
    (h : scanToken s = some (token, rest)) :
    ∃ c lexeme, s = c :: lexeme ++ rest ∧ Takes scanToken token.Follows (c :: lexeme) token := by
  unfold scanToken at h
  split at h
  case h_10 =>
    simp only [Option.bind_eq_bind, Option.bind_eq_some_iff] at h
    obtain ⟨⟨pieces, after⟩, hscan, h⟩ := h
    cases h
    obtain ⟨lexeme, rfl, htakes⟩ := scanText_takes hscan
    refine ⟨'"', lexeme, rfl, fun other _ => ?_⟩
    have htaken := htakes other trivial
    simp [scanToken, htaken]
  case h_11 =>
    simp only [Option.bind_eq_bind, Option.bind_eq_some_iff] at h
    obtain ⟨⟨n, after⟩, hscan, h⟩ := h
    cases h
    obtain ⟨c, lexeme, rfl, hfirst, htakes⟩ := scanNumeral_takes hscan
    refine ⟨c, lexeme, rfl, fun other hother => ?_⟩
    have htaken := htakes other hother
    rw [List.cons_append] at htaken
    rw [List.cons_append, scanToken_of_numeral hfirst, htaken]
    rfl
  case h_7 =>
    cases h
    exact ⟨'n', ['u', 'l', 'l'], rfl, fun _ _ => rfl⟩
  case h_8 =>
    cases h
    exact ⟨'t', ['r', 'u', 'e'], rfl, fun _ _ => rfl⟩
  case h_9 =>
    cases h
    exact ⟨'f', ['a', 'l', 's', 'e'], rfl, fun _ _ => rfl⟩
  all_goals
    cases h
    exact ⟨_, [], rfl, fun _ _ => rfl⟩

theorem tokens?_space {c : Char} (h : isSpace c = true) (s : List Char) :
    tokens? (c :: s) = tokens? s := by
  rw [tokens?, if_pos h]

theorem tokens?_lexeme {c : Char} {s rest : List Char} {token : Token} (h : isSpace c = false)
    (hscan : scanToken (c :: s) = some (token, rest)) :
    tokens? (c :: s) = (tokens? rest).map (token :: ·) := by
  rw [tokens?, if_neg (by simp [h])]
  split
  · rename_i hnone
    rw [hscan] at hnone
    cases hnone
  · rename_i heq
    rw [hscan] at heq
    cases heq
    rfl

/-- A text taken apart into its lexemes. The spaces are dropped. -/
inductive Lexemes : List Char → List (List Char) → Prop
  | nil : Lexemes [] []
  | space {c : Char} {s : List Char} {list : List (List Char)} (hspace : isSpace c = true)
      (h : Lexemes s list) : Lexemes (c :: s) list
  | lexeme {c : Char} {lexeme rest : List Char} {token : Token} {list : List (List Char)}
      (hfirst : isSpace c = false)
      (hscan : scanToken (c :: lexeme ++ rest) = some (token, rest)) (h : Lexemes rest list) :
      Lexemes (c :: lexeme ++ rest) ((c :: lexeme) :: list)

/-- Lexemes put together, with any spaces around them or none. -/
inductive Spaced : List (List Char) → List Char → Prop
  | nil : Spaced [] []
  | space {c : Char} {s : List Char} {list : List (List Char)} (hspace : isSpace c = true)
      (h : Spaced list s) : Spaced list (c :: s)
  | lexeme {lexeme s : List Char} {list : List (List Char)} (h : Spaced list s) :
      Spaced (lexeme :: list) (lexeme ++ s)

/-- A text that consists of lexemes can be taken apart. -/
theorem exists_lexemes {s : List Char} {tokens : List Token} (h : tokens? s = some tokens) :
    ∃ list, Lexemes s list := by
  fun_induction tokens? s generalizing tokens with
  | case1 => exact ⟨[], .nil⟩
  | case2 c rest hspace ih =>
      obtain ⟨list, hlist⟩ := ih h
      exact ⟨list, .space hspace hlist⟩
  | case3 => cases h
  | case4 c rest hspace token after hscan ih =>
      obtain ⟨more, hmore, _⟩ := Option.map_eq_some_iff.1 h
      obtain ⟨list, hlist⟩ := ih hmore
      obtain ⟨first, lexeme, heq, _⟩ := scanToken_takes hscan
      obtain ⟨rfl, rfl⟩ := List.cons.inj heq
      exact ⟨_, .lexeme (Bool.eq_false_iff.2 hspace) hscan hlist⟩

theorem tokens?_of_lexemes_nil {s : List Char} {list : List (List Char)} (h : Lexemes s list)
    (hlist : list = []) : tokens? s = some [] := by
  induction h with
  | nil => rw [tokens?]
  | space hspace _ ih => rw [tokens?_space hspace, ih hlist]
  | lexeme => cases hlist

/-- The first lexeme of a text is scanned as a token, and the others make up the rest. -/
theorem exists_first {s lexeme : List Char} {list more : List (List Char)} (h : Lexemes s list)
    (hlist : list = lexeme :: more) : ∃ token rest, scanToken (lexeme ++ rest) = some (token, rest) ∧
      (∀ c, lexeme.head? = some c → isSpace c = false) ∧ Lexemes rest more ∧
        tokens? s = (tokens? rest).map (token :: ·) := by
  induction h with
  | nil => cases hlist
  | space hspace _ ih =>
      rw [tokens?_space hspace]
      exact ih hlist
  | lexeme hfirst hscan hrest =>
      cases hlist
      refine ⟨_, _, hscan, fun c hc => ?_, hrest, tokens?_lexeme hfirst hscan⟩
      cases hc
      exact hfirst

/-! ## What follows a numeral -/

/-- Whether a token closes or separates. -/
def Token.punctuates : Token → Bool
  | .comma | .endList | .endRecord => true
  | _ => false

/-- Every numeral is followed by punctuation, or by nothing. -/
def Separated : List Token → Prop
  | [] => True
  | .number _ :: rest => (∀ token, rest.head? = some token → token.punctuates = true) ∧ Separated rest
  | _ :: rest => Separated rest

theorem Expecting.punctuates_of_take {v : Node} {stack : List Container} {token : Token}
    {next : Expecting} (h : (Expecting.afterValue v stack).take token = some next) :
    token.punctuates = true := by
  cases stack with
  | nil => cases token <;> cases h
  | cons container outer =>
      cases container <;> cases token <;> first | rfl | cases h

theorem Expecting.afterValue_of_number {state next : Expecting} {n : Numeral}
    (h : state.take (.number n) = some next) : ∃ v stack, next = .afterValue v stack := by
  cases state with
  | value stack =>
      cases h
      exact ⟨_, _, rfl⟩
  | firstItem stack =>
      cases h
      exact ⟨_, _, rfl⟩
  | afterValue v stack =>
      have habsurd := Expecting.punctuates_of_take h
      cases habsurd
  | firstName | name | colon => cases h

theorem Separated.tail {token : Token} {tokens : List Token} (h : Separated (token :: tokens)) :
    Separated tokens := by
  cases token <;> first | exact h | exact h.2

theorem separated_of_foldlM {tokens : List Token} {state last : Expecting}
    (h : tokens.foldlM Expecting.take state = some last) : Separated tokens := by
  induction tokens generalizing state with
  | nil => trivial
  | cons token rest ih =>
      rw [List.foldlM_cons] at h
      obtain ⟨next, hnext, hrest⟩ := Option.bind_eq_some_iff.1 h
      have hothers := ih hrest
      cases token with
      | number n =>
          refine ⟨fun other hother => ?_, hothers⟩
          obtain ⟨v, stack, rfl⟩ := Expecting.afterValue_of_number hnext
          cases rest with
          | nil => cases hother
          | cons first more =>
              cases hother
              rw [List.foldlM_cons] at hrest
              obtain ⟨_, htaken, _⟩ := Option.bind_eq_some_iff.1 hrest
              exact Expecting.punctuates_of_take htaken
      | _ => exact hothers

theorem not_lengthens_of_punctuates {c : Char} {s rest : List Char} {token : Token}
    (h : scanToken (c :: s) = some (token, rest)) (hpunctuates : token.punctuates = true) :
    ¬ Lengthens c := by
  intro hlengthens
  rcases hlengthens with hdigit | rfl | rfl | rfl
  · rw [scanToken_of_numeral (.inr hdigit)] at h
    obtain ⟨⟨n, after⟩, _, h⟩ := Option.bind_eq_some_iff.1 h
    cases h
    cases hpunctuates
  all_goals cases h

/-- What punctuation or a space starts does not lengthen a numeral. -/
theorem avoids_of_tokens? {s : List Char} {tokens : List Token} (h : tokens? s = some tokens)
    (hfirst : ∀ token, tokens.head? = some token → token.punctuates = true) :
    Avoids Lengthens s := by
  intro c hc
  cases s with
  | nil => cases hc
  | cons own rest =>
      cases hc
      by_cases hspace : isSpace c = true
      · intro hlengthens
        simp only [isSpace, Bool.or_eq_true, beq_iff_eq] at hspace
        rcases hspace with ((rfl | rfl) | rfl) | rfl <;> simp [Lengthens] at hlengthens
      · rw [Bool.not_eq_true] at hspace
        rcases hscan : scanToken (c :: rest) with _ | ⟨token, after⟩
        · rw [tokens?, if_neg (by simp [hspace])] at h
          split at h
          · cases h
          · rename_i hother
            rw [hscan] at hother
            cases hother
        · rw [tokens?_lexeme hspace hscan] at h
          obtain ⟨_, _, rfl⟩ := Option.map_eq_some_iff.1 h
          exact not_lengthens_of_punctuates hscan (hfirst token rfl)

/-! ## Any spaces -/

theorem tokens?_of_spaced {list : List (List Char)} {s s' : List Char} {tokens : List Token}
    (hspaced : Spaced list s') (hlexemes : Lexemes s list) (htokens : tokens? s = some tokens)
    (hseparated : Separated tokens) : tokens? s' = some tokens := by
  induction hspaced generalizing s tokens with
  | nil => rw [← htokens, tokens?_of_lexemes_nil hlexemes rfl, tokens?]
  | space hspace _ ih => rw [tokens?_space hspace, ih hlexemes htokens hseparated]
  | @lexeme lexeme s' _ hspaced ih =>
      obtain ⟨token, rest, hscan, hfirst, hrest, hsplit⟩ := exists_first hlexemes rfl
      rw [hsplit] at htokens
      obtain ⟨others, hothers, rfl⟩ := Option.map_eq_some_iff.1 htokens
      have hspacedTokens := ih hrest hothers hseparated.tail
      obtain ⟨c, own, heq, htakes⟩ := scanToken_takes hscan
      obtain rfl := List.append_cancel_right heq
      have hfollows : token.Follows s' := by
        cases token with
        | number n => exact avoids_of_tokens? hspacedTokens hseparated.1
        | _ => trivial
      have hscanned : tokens? (c :: own ++ s') = _ :=
        tokens?_lexeme (hfirst c rfl) (htakes s' hfollows)
      rw [hscanned, hspacedTokens]
      rfl

/-- The lexemes of a tree, spaced in any other way, are the same tree. -/
def Respaced (text text' : String) : Prop :=
  ∃ list, Lexemes text.toList list ∧ Spaced list text'.toList

theorem Node.parse?_of_respaced {text text' : String} {node : Node}
    (h : Node.parse? text = some node) (hrespaced : Respaced text text') :
    Node.parse? text' = some node := by
  obtain ⟨list, hlexemes, hspaced⟩ := hrespaced
  obtain ⟨tokens, htokens, hnode⟩ := Option.bind_eq_some_iff.1 h
  have hseparated : Separated tokens := by
    unfold Node.ofTokens? at hnode
    rcases hfold : tokens.foldlM Expecting.take (.value []) with _ | last
    · rw [hfold] at hnode
      cases hnode
    · exact separated_of_foldlM hfold
  rw [Node.parse?, tokens?_of_spaced hspaced hlexemes htokens hseparated]
  exact hnode

end DateReviver.Json
