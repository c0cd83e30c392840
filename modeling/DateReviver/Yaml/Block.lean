import DateReviver.Yaml.Character

/-!
# Block scalars

A scalar that is marked by `|` or `>` consists of the lines below that are indented deeper than
what it belongs to. The header says how deep they are, unless the first line that is not empty
does, and what becomes of the last line breaks. In folded scalars, those marked by `>`, a line
break between two lines that begin with no blank is a space.
-/

namespace DateReviver.Yaml

/-- What becomes of the line breaks at the end of a block scalar. -/
inductive Chomping where
  /-- One is kept. -/
  | clip
  /-- None is kept. -/
  | strip
  /-- All are kept. -/
  | keep

structure BlockHeader where
  chomping : Chomping
  /-- How much deeper than what the scalar belongs to its lines are, if that is given. -/
  depth : Option Nat

def chomping? : Char → Option Chomping
  | '-' => some .strip
  | '+' => some .keep
  | _ => none

/-- The digit that gives the depth of the lines, if one stands at the front. It cannot be zero. -/
def scanDepth (s : List Placed) : Option (Option Nat × List Placed) :=
  match s with
  | p :: rest =>
      if p.char = '0' then none
      else if p.char.isDigit then some (some (p.char.toNat - 48), rest)
      else some (none, s)
  | [] => some (none, [])

theorem length_of_scanDepth {s rest : List Placed} {depth : Option Nat}
    (h : scanDepth s = some (depth, rest)) : rest.length ≤ s.length := by
  unfold scanDepth at h
  grind

/-- The sign that asks for a chomping, if one stands at the front. -/
def scanChomping (s : List Placed) : Option Chomping × List Placed :=
  match s with
  | p :: rest =>
      match chomping? p.char with
      | some chomping => (some chomping, rest)
      | none => (none, s)
  | [] => (none, [])

theorem length_scanChomping_le (s : List Placed) : (scanChomping s).2.length ≤ s.length := by
  unfold scanChomping
  grind

/-- The two parts of a header, which may stand in either order, and what follows them. -/
def scanHeaderParts (s : List Placed) : Option (BlockHeader × List Placed) :=
  match scanChomping s with
  | (some chomping, rest) => (scanDepth rest).map fun found => (⟨chomping, found.1⟩, found.2)
  | (none, rest) =>
      (scanDepth rest).map fun found =>
        (⟨(scanChomping found.2).1.getD .clip, found.1⟩, (scanChomping found.2).2)

theorem length_of_scanHeaderParts {s rest : List Placed} {header : BlockHeader}
    (h : scanHeaderParts s = some (header, rest)) : rest.length ≤ s.length := by
  have hfirst := length_scanChomping_le s
  unfold scanHeaderParts at h
  split at h
  all_goals
    obtain ⟨⟨depth, middle⟩, hdepth, h⟩ := Option.map_eq_some_iff.1 h
    have hmiddle := length_of_scanDepth hdepth
    have hlast := length_scanChomping_le middle
    grind

/-- The next line, if nothing but a comment stands in what is left of this one. -/
def nextLine? (s : List Placed) : Option (List Placed) :=
  match dropBlanks s with
  | [] => some []
  | p :: rest =>
      if isBreak p.char then some rest
      else if p.char = '#' then some ((dropLine rest).drop 1)
      else none

theorem length_of_nextLine? {s rest : List Placed} (h : nextLine? s = some rest) :
    rest.length ≤ s.length := by
  have := length_dropBlanks_le s
  unfold nextLine? at h
  grind [length_dropLine_le]

/-- The line breaks before the next line with content, the latest first; the deepest column that
was reached on the way; and that line, without its indentation. No indentation holds a tab. -/
def skipEmptyLines (indent : Option Nat) (breaks : List Char) (deepest : Nat) :
    List Placed → Option (List Char × Nat × List Placed)
  | [] => some (breaks, deepest, [])
  | p :: rest =>
      let indenting := indent.all (p.column < ·)
      let deepest := max deepest p.column
      if indenting && p.char == ' ' then skipEmptyLines indent breaks deepest rest
      else if indenting && p.char == '\t' then none
      else if isBreak p.char then skipEmptyLines indent (p.char :: breaks) deepest rest
      else some (breaks, deepest, p :: rest)

theorem length_of_skipEmptyLines {indent : Option Nat} {breaks breaks' : List Char}
    {deepest deepest' : Nat} {s rest : List Placed}
    (h : skipEmptyLines indent breaks deepest s = some (breaks', deepest', rest)) :
    rest.length ≤ s.length := by
  induction s generalizing breaks deepest with
  | nil => simp only [skipEmptyLines, Option.some.injEq, Prod.mk.injEq] at h; simp [← h.2.2]
  | cons p tail ih =>
      simp only [skipEmptyLines] at h
      split at h
      · exact Nat.le_succ_of_le (ih h)
      · split at h
        · cases h
        · split at h
          · exact Nat.le_succ_of_le (ih h)
          · cases h; simp

structure LineEnd where
  /-- The break that ends the first line, if there is one. -/
  first : Option Char
  /-- The breaks of the empty lines after it, the latest first. -/
  others : List Char
  blank : Bool

/-- What is left between two lines, the latest first. -/
def LineEnd.folded (folds : Bool) (ending : LineEnd) (nextBlank : Bool) : List Char :=
  if folds ∧ ending.first = some '\n' ∧ !ending.blank ∧ !nextBlank then
    if ending.others.isEmpty then [' '] else ending.others
  else ending.others ++ ending.first.toList

/-- What is left after the last line, the latest first. -/
def LineEnd.chomped (chomping : Chomping) (ending : LineEnd) : List Char :=
  match chomping with
  | .strip => []
  | .clip => ending.first.toList
  | .keep => ending.others ++ ending.first.toList

/-- The text of the lines at a column, and what follows them. The text so far is held the latest
first. -/
def scanLines (folds : Bool) (chomping : Chomping) (indent : Nat) (text : List Char)
    (ending : LineEnd) (s : List Placed) : Option (String × List Placed) :=
  match s with
  | [] => some (String.ofList (ending.chomped chomping ++ text).reverse, [])
  | p :: rest =>
      if p.column = indent then
        let blank := isBlank p.char
        let line := (p :: rest).takeWhile fun q => !isBreak q.char
        let text := (line.map Placed.char).reverse ++ (ending.folded folds blank ++ text)
        match _hrest : dropLine rest with
        | [] => some (String.ofList text.reverse, [])
        | q :: next =>
            match _hnext : skipEmptyLines (some indent) [] 0 next with
            | none => none
            | some (others, _, next) =>
                scanLines folds chomping indent text ⟨some q.char, others, blank⟩ next
      else some (String.ofList (ending.chomped chomping ++ text).reverse, p :: rest)
termination_by s.length
decreasing_by
  have hle := length_of_skipEmptyLines _hnext
  have hdrop := length_dropLine_le rest
  rw [_hrest] at hdrop
  simp only [List.length_cons] at hdrop ⊢
  omega

theorem length_of_scanLines {folds : Bool} {chomping : Chomping} {indent : Nat}
    {text : List Char} {ending : LineEnd} {s rest : List Placed} {scalar : String}
    (h : scanLines folds chomping indent text ending s = some (scalar, rest)) :
    rest.length ≤ s.length := by
  fun_induction scanLines folds chomping indent text ending s with
  | case1 => cases h; simp
  | case2 => cases h; simp
  | case3 => cases h
  | case4 =>
      rename_i hskip ih
      have h1 := ih h
      have h2 := length_of_skipEmptyLines hskip
      grind [length_dropLine_le]
  | case5 => cases h; simp

/-- The text of a block scalar after its mark, and what follows it. `outer` is the column of what
it belongs to, if that has one; its lines are deeper, and never at the first column. -/
def scanBlock (folds : Bool) (outer : Option Nat) (s : List Placed) :
    Option (String × List Placed) := do
  let (header, rest) ← scanHeaderParts s
  let rest ← nextLine? rest
  let given := header.depth.map (outer.getD 0 + ·)
  let (breaks, deepest, rest) ← skipEmptyLines given [] 0 rest
  let least := outer.elim 1 (· + 1)
  let indent := given.getD (max deepest least)
  scanLines folds header.chomping indent [] ⟨none, breaks, false⟩ rest

theorem length_of_scanBlock {folds : Bool} {outer : Option Nat} {s rest : List Placed}
    {scalar : String} (h : scanBlock folds outer s = some (scalar, rest)) :
    rest.length ≤ s.length := by
  simp only [scanBlock, Option.bind_eq_bind, Option.bind_eq_some_iff] at h
  obtain ⟨⟨header, s1⟩, h1, s2, h2, ⟨breaks, deepest, s3⟩, h3, h4⟩ := h
  have := length_of_scanHeaderParts h1
  have := length_of_nextLine? h2
  have := length_of_skipEmptyLines h3
  have := length_of_scanLines h4
  simp only at *
  omega

end DateReviver.Yaml
