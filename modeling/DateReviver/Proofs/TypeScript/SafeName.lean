import DateReviver.Proofs.TypeScript.Identifier

/-!
# Safe names

A name is safe if it is not empty and not reserved, has no separators and does not begin with a digit.
Whatever characters a name has, the identifier that is made of it is safe, because no letter has a
separator in its upper case; and a safe name is its own identifier. So to make identifiers is a
projection onto the safe names.
-/

namespace DateReviver.TypeScript

open DateReviver.Text

/-- A name that needs no mending. -/
structure IsSafe (name : String) : Prop where
  nonempty : name ≠ ""
  joined : ∀ c ∈ name.toList, isSeparator c = false
  started : ∀ c, name.toList.head? = some c → c.isDigit = false
  notReserved : isReserved name = false

/-! ## Upper case -/

/-- A class has all images of a mapping, if it has the characters without an image, the characters of
the special images and those from the least image of a run on. -/
theorem mem_mapCase {p : Char → Prop} {special : List (Nat × List Nat)} {runs : List CaseRun}
    {least : Nat} (hspecial : ∀ entry ∈ special, ∀ code ∈ entry.2, p (Char.ofNat code))
    (hruns : ∀ run ∈ runs, least ≤ run.image) (hleast : ∀ code, least ≤ code → p (Char.ofNat code))
    {c d : Char} (hc : p c) (hd : d ∈ mapCase special runs c) : p d := by
  unfold mapCase at hd
  split at hd
  · rename_i images hlookup
    obtain ⟨code, hcode, rfl⟩ := List.mem_map.1 hd
    obtain ⟨before, after, hsplit, _⟩ := List.lookup_eq_some_iff.1 hlookup
    exact hspecial (c.toNat, images) (by simp [hsplit]) code hcode
  · split at hd
    · rename_i image hfind
      obtain ⟨run, hrun, himage⟩ := List.exists_of_findSome?_eq_some hfind
      unfold CaseRun.image? at himage
      split at himage
      · cases himage
        rw [List.mem_singleton.1 hd]
        exact hleast _ (Nat.le_trans (hruns run hrun) (Nat.le_add_right _ _))
      · cases himage
    · rw [List.mem_singleton.1 hd]
      exact hc

/-- All separators come before the letters. A number that is no character stands for the zero character,
which is no separator either. -/
theorem isSeparator_ofNat {code : Nat} (h : 'A'.toNat ≤ code) :
    isSeparator (Char.ofNat code) = false := by
  by_cases hvalid : code.isValidChar
  · have hcode : (Char.ofNat code).toNat = code := by
      rw [Char.ofNat, dif_pos hvalid]
      rfl
    refine Bool.eq_false_iff.2 fun hseparator => ?_
    simp only [isSeparator, Bool.or_eq_true, beq_iff_eq] at hseparator
    rcases hseparator with (heq | heq) | heq <;>
    · rw [heq] at hcode
      subst hcode
      exact absurd h (by decide)
  · rw [Char.ofNat, dif_neg hvalid]
    rfl

theorem not_isSeparator_upperChar {c d : Char} (hc : isSeparator c = false)
    (hd : d ∈ upperChar c) : isSeparator d = false := by
  have hspecial : ∀ entry ∈ upperSpecial, ∀ code ∈ entry.2, 'A'.toNat ≤ code := by decide +kernel
  have hruns : ∀ run ∈ upperRuns, 'A'.toNat ≤ run.image := by decide +kernel
  exact mem_mapCase (p := fun c => isSeparator c = false)
    (fun entry hentry code hcode => isSeparator_ofNat (hspecial entry hentry code hcode)) hruns
    (fun _ => isSeparator_ofNat) hc hd

/-! ## Words -/

/-- No separator is left between the words of a name. -/
theorem not_isSeparator_joinWords {raise : Bool} {chars : List Char} {c : Char}
    (h : c ∈ joinWords raise chars) : isSeparator c = false := by
  induction chars generalizing raise with
  | nil => cases h
  | cons head rest ih =>
      rw [joinWords] at h
      split at h
      · exact ih h
      · rename_i hhead
        rw [Bool.not_eq_true] at hhead
        rcases List.mem_append.1 h with hfirst | hrest
        · split at hfirst
          · exact not_isSeparator_upperChar hhead hfirst
          · rwa [List.mem_singleton.1 hfirst]
        · exact ih hrest

/-- Without separators a name is one word. -/
theorem joinWords_eq_self {chars : List Char} (h : ∀ c ∈ chars, isSeparator c = false) :
    joinWords false chars = chars := by
  induction chars with
  | nil => rfl
  | cons head rest ih =>
      rw [List.forall_mem_cons] at h
      rw [joinWords, if_neg (Bool.eq_false_iff.1 h.1), ih h.2]
      rfl

theorem needsMark_eq_false_iff {word : List Char} : needsMark word = false ↔
    (∀ c, word.head? = some c → c.isDigit = false) ∧ isReserved (String.ofList word) = false := by
  unfold needsMark
  rw [Bool.or_eq_false_iff]
  cases word <;> simp

/-! ## Identifiers -/

/-- A mark in front makes a name safe that has no separators. -/
theorem marked_isSafe {word : List Char} (h : ∀ c ∈ word, isSeparator c = false) :
    IsSafe (String.ofList ('_' :: word)) := by
  have hchars : (String.ofList ('_' :: word)).toList = '_' :: word := String.toList_ofList
  constructor
  · intro hempty
    rw [hempty] at hchars
    cases hchars
  · rw [hchars, List.forall_mem_cons]
    exact ⟨rfl, h⟩
  · rw [hchars]
    intro c hc
    cases hc
    rfl
  · exact isReserved_eq_false (c := '_') (by simp) rfl

/-- Whatever a name is, its identifier is safe. -/
theorem identifier_isSafe (name : String) : IsSafe (identifier name) := by
  have hjoined : ∀ c ∈ joinWords false name.toList, isSeparator c = false :=
    fun _ => not_isSeparator_joinWords
  unfold identifier identifierChars
  cases hword : joinWords false name.toList with
  | nil =>
      have hempty : ∀ c ∈ ['e', 'm', 'p', 't', 'y'], isSeparator c = false := by
        simp [isSeparator]
      exact marked_isSafe hempty
  | cons head rest =>
      rw [hword] at hjoined
      dsimp only
      split
      · exact marked_isSafe hjoined
      · rename_i hbare
        obtain ⟨hstarted, hnotReserved⟩ := needsMark_eq_false_iff.1 (Bool.not_eq_true _ ▸ hbare)
        have hchars : (String.ofList (head :: rest)).toList = head :: rest := String.toList_ofList
        refine ⟨fun hempty => ?_, hchars.symm ▸ hjoined, hchars.symm ▸ hstarted, hnotReserved⟩
        rw [hempty] at hchars
        cases hchars

theorem IsSafe.identifier_eq {name : String} (h : IsSafe name) : identifier name = name := by
  have hword : joinWords false name.toList = name.toList := joinWords_eq_self h.joined
  have hbare : needsMark name.toList = false :=
    needsMark_eq_false_iff.2 ⟨h.started, by rw [String.ofList_toList]; exact h.notReserved⟩
  unfold identifier identifierChars
  rw [hword]
  cases hchars : name.toList with
  | nil => exact absurd (String.toList_eq_nil_iff.1 hchars) h.nonempty
  | cons head rest =>
      rw [hchars] at hbare
      dsimp only
      rw [if_neg (Bool.eq_false_iff.1 hbare), ← hchars, String.ofList_toList]

/-- The safe names are those that making identifiers leaves alone. -/
theorem identifier_eq_self_iff {name : String} : identifier name = name ↔ IsSafe name :=
  ⟨fun h => h ▸ identifier_isSafe name, IsSafe.identifier_eq⟩

theorem IsUnreserved.needsBracket_eq_false {name : String} (h : IsUnreserved name) :
    needsBracket name = false ∧ isReserved name = false :=
  ⟨isIdentifier_iff.1 h.identifier, h.notReserved⟩

end DateReviver.TypeScript

namespace DateReviver

open DateReviver.TypeScript

/-- To make identifiers is a projection onto the safe names: every identifier is safe, and making an
identifier of it again changes nothing, as it changes none but the names that are not safe. If a name
has only letters and digits of ASCII, `_`, `$`, `-`, `.` and spaces, then its identifier needs no
brackets after an object, nor do the names of the function and of the parameter for a type of that
name, and none of these is reserved. -/
theorem identifier_projects (name : String) :
    IsSafe (identifier name) ∧ identifier (identifier name) = identifier name ∧
    (identifier name = name ↔ IsSafe name) ∧
    (name.toList.all isWordChar = true →
      ∀ made ∈ [identifier name, functionName name, parameterName name],
        needsBracket made = false ∧ isReserved made = false) := by
  have hsafe := identifier_isSafe name
  refine ⟨hsafe, hsafe.identifier_eq, identifier_eq_self_iff, fun hword made hmade => ?_⟩
  simp only [List.mem_cons, List.not_mem_nil, or_false] at hmade
  rcases hmade with rfl | rfl | rfl
  · exact (identifier_isUnreserved hword).needsBracket_eq_false
  · exact (functionName_isUnreserved hword).needsBracket_eq_false
  · exact (parameterName_isUnreserved hword).needsBracket_eq_false

/-- The digit is only at the front when the separator before it is gone, and the last word would be
reserved if it stood alone. -/
theorem identifier_projects_exposed :
    let name := ".2-delete"
    identifier name = "_2Delete" ∧ IsSafe (identifier name) ∧ name.toList.all isWordChar = true ∧
      ∀ made ∈ [identifier name, functionName name, parameterName name],
        needsBracket made = false ∧ isReserved made = false :=
  ⟨by decide +kernel, (identifier_projects _).1, by decide,
    (identifier_projects _).2.2.2 (by decide)⟩

end DateReviver
