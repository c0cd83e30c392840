import DateReviver.Proofs.Emission.Names

/-!
# Names that are identifiers

An identifier begins with a letter, `_` or `$` and goes on with such characters and digits. What is
made of a name is an identifier, and none that is reserved, if the name has no other characters than
these and separators: changing the case of a character leaves it in its class, separators are dropped,
and a digit at the front or a reserved word gets a mark.
-/

namespace DateReviver.TypeScript

open DateReviver.Text

/-- A character of identifiers, or one that separates words. -/
def isWordChar (c : Char) : Bool :=
  isIdentPart c || isSeparator c

/-- A letter, `_` or `$`, and then any number of letters, digits, `_` or `$`. -/
def IsIdentifier (name : String) : Prop :=
  ∃ c rest, name.toList = c :: rest ∧ isIdentStart c = true ∧ rest.all isIdentPart = true

/-- An identifier that the language does not reserve. -/
structure IsUnreserved (name : String) : Prop where
  identifier : IsIdentifier name
  notReserved : isReserved name = false

/-! ## Characters -/

theorem isIdentPart_of_isIdentStart {c : Char} (h : isIdentStart c = true) :
    isIdentPart c = true := by
  simp only [isIdentStart, isIdentPart, Char.isAlphanum, Bool.or_eq_true] at h ⊢
  grind

theorem isIdentStart_of_not_digit {c : Char} (h : isIdentPart c = true) (hdigit : c.isDigit = false) :
    isIdentStart c = true := by
  simp only [isIdentStart, isIdentPart, Char.isAlphanum, hdigit, Bool.or_false] at h ⊢
  exact h

theorem isIdentPart_of_isDigit {c : Char} (h : c.isDigit = true) : isIdentPart c = true := by
  simp [isIdentPart, Char.isAlphanum, h]

theorem isUpper_iff {c : Char} : c.isUpper = true ↔ 'A'.toNat ≤ c.toNat ∧ c.toNat ≤ 'Z'.toNat :=
  decide_eq_true_iff

theorem isLower_iff {c : Char} : c.isLower = true ↔ 'a'.toNat ≤ c.toNat ∧ c.toNat ≤ 'z'.toNat := by
  change (decide (c.val ≥ 'a'.val) && decide (c.val ≤ 'z'.val)) = true ↔ _
  rw [Bool.and_eq_true, decide_eq_true_iff, decide_eq_true_iff]
  exact Iff.rfl

theorem not_isLower_of_isDigit {c : Char} (h : c.isDigit = true) : c.isLower = false := by
  have hdigit : c.toNat ≤ 57 := (Char.isDigit_iff_toNat.1 h).2
  refine Bool.eq_false_iff.2 fun hlower => ?_
  have hletter : 97 ≤ c.toNat := (isLower_iff.1 hlower).1
  omega

theorem isAlphanum_lt {c : Char} (h : c.isAlphanum = true) : c.toNat < 128 := by
  have hcases : ((c.isUpper || c.isLower) || c.isDigit) = true := h
  rw [Bool.or_eq_true, Bool.or_eq_true] at hcases
  rcases hcases with (hupper | hlower) | hdigit
  · have hcode : c.toNat ≤ 90 := (isUpper_iff.1 hupper).2
    omega
  · have hcode : c.toNat ≤ 122 := (isLower_iff.1 hlower).2
    omega
  · have hcode : c.toNat ≤ 57 := (Char.isDigit_iff_toNat.1 hdigit).2
    omega

theorem isWordChar_lt {c : Char} (h : isWordChar c = true) : c.toNat < 128 := by
  simp only [isWordChar, isIdentPart, isSeparator, Bool.or_eq_true, beq_iff_eq] at h
  rcases h with ((h | rfl) | rfl) | (rfl | rfl) | rfl
  · exact isAlphanum_lt h
  all_goals decide

theorem isWordChar_of_isIdentPart {c : Char} (h : isIdentPart c = true) : isWordChar c = true := by
  simp [isWordChar, h]

/-! ## Letters of ASCII in the other case -/

/-- The image of a character in a run, or the character itself. -/
def imageIn (run : CaseRun) (c : Char) : Char :=
  Char.ofNat ((run.image? c.toNat).getD c.toNat)

/-- If all but the first run is beyond ASCII, the first one decides the images of ASCII. -/
theorem mapCase_ascii {special : List (Nat × List Nat)} {run : CaseRun} {runs : List CaseRun}
    (hspecial : ∀ entry ∈ special, 128 ≤ entry.1) (hruns : ∀ other ∈ runs, 128 ≤ other.first)
    {c : Char} (hc : c.toNat < 128) : mapCase special (run :: runs) c = [imageIn run c] := by
  have hplain : special.lookup c.toNat = none := by
    rw [List.lookup_eq_none_iff]
    intro entry hmem
    have hbeyond := hspecial entry hmem
    exact bne_iff_ne.2 (Nat.ne_of_lt (Nat.lt_of_lt_of_le hc hbeyond))
  have hothers : runs.findSome? (CaseRun.image? · c.toNat) = none := by
    rw [List.findSome?_eq_none_iff]
    intro other hmem
    have hbeyond := hruns other hmem
    exact if_neg fun h => absurd h.1 (by omega)
  rw [mapCase, hplain, List.findSome?_cons, hothers, imageIn]
  cases run.image? c.toNat with
  | none => simp [Char.ofNat_toNat]
  | some image => rfl

theorem upperChar_ascii {c : Char} (hc : c.toNat < 128) :
    upperChar c = [imageIn ⟨0x61, 0x7A, 1, 0x41⟩ c] := by
  have hruns : ∀ other ∈ upperRuns.tail, 128 ≤ other.first := by decide +kernel
  exact mapCase_ascii (by decide) hruns hc

theorem lowerChar_ascii {c : Char} (hc : c.toNat < 128) :
    lowerChar c = [imageIn ⟨0x41, 0x5A, 1, 0x61⟩ c] := by
  have hruns : ∀ other ∈ lowerRuns.tail, 128 ≤ other.first := by decide +kernel
  exact mapCase_ascii (by decide) hruns hc

/-- A class of characters of ASCII is closed under an image if it is so code by code. -/
theorem all_imageIn {p : Char → Bool} {run : CaseRun}
    (h : ∀ code < 128, p (Char.ofNat code) = true → p (imageIn run (Char.ofNat code)) = true)
    {c : Char} (hc : c.toNat < 128) (hp : p c = true) : [imageIn run c].all p = true := by
  have himage := h c.toNat hc
  rw [Char.ofNat_toNat] at himage
  rw [List.all_cons, himage hp]
  rfl

theorem all_upperChar_identPart {c : Char} (h : isIdentPart c = true) :
    (upperChar c).all isIdentPart = true := by
  have hc := isWordChar_lt (isWordChar_of_isIdentPart h)
  rw [upperChar_ascii hc]
  exact all_imageIn (by decide) hc h

theorem all_upperChar {c : Char} (h : isWordChar c = true) :
    (upperChar c).all isWordChar = true := by
  rw [upperChar_ascii (isWordChar_lt h)]
  exact all_imageIn (by decide) (isWordChar_lt h) h

theorem all_lowerChar {c : Char} (h : isWordChar c = true) :
    (lowerChar c).all isWordChar = true := by
  rw [lowerChar_ascii (isWordChar_lt h)]
  exact all_imageIn (by decide) (isWordChar_lt h) h

/-! ## Names of words -/

/-- Characters in a class that upper case does not leave stay in it when a name is capitalised. -/
theorem all_capitalize {p : Char → Bool} (hupper : ∀ c, p c = true → (upperChar c).all p = true)
    {name : String} (h : name.toList.all p = true) : (capitalize name).toList.all p = true := by
  rw [capitalize, String.toList_ofList]
  cases hchars : name.toList with
  | nil => rfl
  | cons c rest =>
      rw [hchars, List.all_cons, Bool.and_eq_true] at h
      rw [capitalizeChars, List.all_append, hupper c h.1, h.2]
      rfl

theorem all_uncapitalize {name : String} (h : name.toList.all isWordChar = true) :
    (uncapitalize name).toList.all isWordChar = true := by
  rw [uncapitalize, String.toList_ofList]
  cases hchars : name.toList with
  | nil => rfl
  | cons c rest =>
      rw [hchars, List.all_cons, Bool.and_eq_true] at h
      rw [uncapitalizeChars, List.all_append, all_lowerChar h.1, h.2]
      rfl

theorem all_joinWords {chars : List Char} (h : chars.all isWordChar = true) (raise : Bool) :
    (joinWords raise chars).all isIdentPart = true := by
  induction chars generalizing raise with
  | nil => rfl
  | cons c rest ih =>
      rw [List.all_cons, Bool.and_eq_true] at h
      rw [joinWords]
      split
      · exact ih h.2 true
      · rename_i hseparator
        have hpart : isIdentPart c = true := by
          have hword := h.1
          simpa [isWordChar, hseparator] using hword
        rw [List.all_append, ih h.2 false, Bool.and_true]
        split
        · exact all_upperChar_identPart hpart
        · simp [hpart]

/-! ## Reserved words -/

/-- Reserved words have lower-case letters only. -/
theorem isReserved_eq_false {name : String} {c : Char} (hmem : c ∈ name.toList)
    (hc : c.isLower = false) : isReserved name = false := by
  have hlower : ∀ word ∈ reservedWords, word.toList.all Char.isLower = true := by decide
  rw [isReserved, List.contains_eq_mem, decide_eq_false_iff_not]
  intro hreserved
  have hall := List.all_eq_true.1 (hlower name hreserved) c hmem
  rw [hc] at hall
  exact Bool.false_ne_true hall

theorem isIdentifier_iff {name : String} : IsIdentifier name ↔ needsBracket name = false := by
  unfold IsIdentifier needsBracket
  cases name.toList with
  | nil => simp
  | cons c rest =>
      rw [Bool.not_eq_false', Bool.and_eq_true]
      constructor
      · rintro ⟨_, _, heq, hstart, hrest⟩
        cases heq
        exact ⟨hstart, hrest⟩
      · intro h
        exact ⟨c, rest, rfl, h⟩

instance : DecidablePred IsIdentifier :=
  fun _ => decidable_of_iff _ isIdentifier_iff.symm

instance : DecidablePred IsUnreserved :=
  fun name => decidable_of_iff (IsIdentifier name ∧ isReserved name = false)
    ⟨fun h => ⟨h.1, h.2⟩, fun h => ⟨h.identifier, h.notReserved⟩⟩

theorem IsIdentifier.all_identPart {name : String} (h : IsIdentifier name) :
    name.toList.all isIdentPart = true := by
  obtain ⟨c, rest, hchars, hstart, hrest⟩ := h
  rw [hchars, List.all_cons, isIdentPart_of_isIdentStart hstart, hrest]
  rfl

theorem marked_isUnreserved {rest : List Char} (h : rest.all isIdentPart = true) :
    IsUnreserved (String.ofList ('_' :: rest)) := by
  have hmem : '_' ∈ (String.ofList ('_' :: rest)).toList := by
    rw [String.toList_ofList]
    exact List.mem_cons_self
  exact ⟨⟨'_', rest, String.toList_ofList, rfl, h⟩, isReserved_eq_false hmem rfl⟩

/-- Whatever is made of a name of words is an identifier and not reserved. -/
theorem identifier_isUnreserved {name : String} (h : name.toList.all isWordChar = true) :
    IsUnreserved (identifier name) := by
  have hparts := all_joinWords h false
  unfold identifier identifierChars
  cases hword : joinWords false name.toList with
  | nil => exact marked_isUnreserved rfl
  | cons c rest =>
      rw [hword] at hparts
      dsimp only
      split
      · exact marked_isUnreserved hparts
      · rename_i hbare
        rw [List.all_cons, Bool.and_eq_true] at hparts
        simp only [needsMark, Bool.or_eq_true, not_or, Bool.not_eq_true] at hbare
        exact ⟨⟨c, rest, String.toList_ofList, isIdentStart_of_not_digit hparts.1 hbare.1, hparts.2⟩,
          hbare.2⟩

/-- The name of a function with the characters of identifiers in its middle, and not only lower-case
letters at its end. -/
theorem transform_isUnreserved {word last : String} (hword : word.toList.all isIdentPart = true)
    (hlast : last.toList.all isIdentPart = true) (hraised : last.toList.all Char.isLower = false) :
    IsUnreserved ("transform" ++ word ++ last) := by
  obtain ⟨c, hmem, hc⟩ := List.all_eq_false.1 hraised
  have hchars : ("transform" ++ word ++ last).toList =
      "transform".toList ++ (word.toList ++ last.toList) := by simp
  constructor
  · refine ⟨'t', "ransform".toList ++ (word.toList ++ last.toList), hchars, rfl, ?_⟩
    rw [List.all_append, List.all_append, hword, hlast]
    rfl
  · exact isReserved_eq_false (by simp [hmem]) (Bool.eq_false_iff.2 hc)

end DateReviver.TypeScript

namespace DateReviver

open DateReviver.TypeScript DateReviver.Text

variable {typeName : String}

theorem functionName_isUnreserved (h : typeName.toList.all isWordChar = true) :
    IsUnreserved (functionName typeName) := by
  have hword := identifier_isUnreserved (all_capitalize (fun _ => all_upperChar) h)
  have hcapital := all_capitalize (fun _ => all_upperChar_identPart) hword.identifier.all_identPart
  exact transform_isUnreserved hcapital (by decide) (by decide)

theorem parameterName_isUnreserved (h : typeName.toList.all isWordChar = true) :
    IsUnreserved (parameterName typeName) :=
  identifier_isUnreserved (all_uncapitalize h)

/-- The number that inner loops get ends no reserved word. -/
theorem loopVariable_isUnreserved {base : String} (h : IsUnreserved base) (level : Nat) :
    IsUnreserved (loopVariable base level) := by
  have hchars := toList_loopVariable base level
  by_cases hlevel : level = 0
  · rw [if_pos hlevel, List.append_nil, String.toList_inj] at hchars
    rw [hchars]
    exact h
  · rw [if_neg hlevel, Nat.toList_repr] at hchars
    have hdigits : (Nat.toDigits 10 level).all Char.isDigit = true :=
      List.all_eq_true.2 fun _ => Nat.isDigit_of_mem_toDigits (by decide) (by decide)
    constructor
    · obtain ⟨c, rest, hbase, hstart, hrest⟩ := h.identifier
      rw [hbase] at hchars
      refine ⟨c, rest ++ Nat.toDigits 10 level, hchars, hstart, ?_⟩
      rw [List.all_append, hrest, Bool.true_and, List.all_eq_true]
      intro d hd
      exact isIdentPart_of_isDigit (List.all_eq_true.1 hdigits d hd)
    · obtain ⟨d, hd⟩ := List.exists_mem_of_ne_nil _ (@Nat.toDigits_ne_nil level 10)
      have hmem : d ∈ (loopVariable base level).toList := by
        rw [hchars]
        exact List.mem_append_right _ hd
      exact isReserved_eq_false hmem (not_isLower_of_isDigit (List.all_eq_true.1 hdigits d hd))

theorem LoopName.isUnreserved {level : Nat} {name : String} (h : LoopName level name) :
    IsUnreserved name := by
  rcases h with rfl | rfl
  · exact loopVariable_isUnreserved (by decide) level
  · exact loopVariable_isUnreserved (by decide) level

end DateReviver
