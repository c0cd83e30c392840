import DateReviver.Yaml.Block
import DateReviver.Yaml.Layout
import DateReviver.Yaml.Plain
import DateReviver.Yaml.Quoted

/-!
# The tokens of a text

The first character of a token, and at times the one after it, tell what token it is. Every token
takes some of the text, and between tokens stand spaces, comments and line breaks.
-/

namespace DateReviver.Yaml

namespace Layout

def endsAnchor (s : List Placed) : Bool :=
  atGap s || s.head?.any fun p => "?:,]\x7d%@`".toList.contains p.char

def scanAnchor (s : List Placed) : Option (String × List Placed) :=
  let (name, rest) := takeName s
  if name ≠ "" ∧ endsAnchor rest then some (name, rest) else none

theorem length_of_scanAnchor {s rest : List Placed} {name : String}
    (h : scanAnchor s = some (name, rest)) : rest.length ≤ s.length := by
  have hname := length_takeName_le s
  simp only [scanAnchor] at h
  split at h
  · cases h; exact hname
  · cases h

def takeAnchor? (rest : List Placed) (s : Layout) : Option (Layout × List Placed) := do
  let (name, rest) ← scanAnchor rest
  let (number, names) := s.names.anchor name
  return ({ s with names }.push (.anchor number), rest)

theorem length_of_takeAnchor? {s s' : Layout} {rest rest' : List Placed}
    (h : s.takeAnchor? rest = some (s', rest')) : rest'.length ≤ rest.length := by
  simp only [takeAnchor?, Option.bind_eq_bind, Option.bind_eq_some_iff] at h
  obtain ⟨⟨name, after⟩, hname, h⟩ := h
  cases h
  exact length_of_scanAnchor hname

def takeAlias? (rest : List Placed) (s : Layout) : Option (Layout × List Placed) := do
  let (name, rest) ← scanAnchor rest
  let number ← s.names.anchor? name
  return (s.push (.aliasTo number), rest)

theorem length_of_takeAlias? {s s' : Layout} {rest rest' : List Placed}
    (h : s.takeAlias? rest = some (s', rest')) : rest'.length ≤ rest.length := by
  simp only [takeAlias?, Option.bind_eq_bind, Option.bind_eq_some_iff] at h
  obtain ⟨⟨name, after⟩, hname, _, _, h⟩ := h
  cases h
  exact length_of_scanAnchor hname

def takeTag? (rest : List Placed) (s : Layout) : Option (Layout × List Placed) := do
  let (name, rest) ← scanTag s.flow rest
  let tag ← s.names.tag? name
  return (s.push (.tag tag), rest)

theorem length_of_takeTag? {s s' : Layout} {rest rest' : List Placed}
    (h : s.takeTag? rest = some (s', rest')) : rest'.length ≤ rest.length := by
  simp only [takeTag?, Option.bind_eq_bind, Option.bind_eq_some_iff] at h
  obtain ⟨⟨name, after⟩, hname, _, _, h⟩ := h
  cases h
  exact length_of_scanTag hname

/-- Take a plain scalar. If it is followed by a line break, a key may follow. -/
def takePlain? (text : List Placed) (s : Layout) : Option (Layout × List Placed) := do
  let indent := s.indents.head?.elim 0 (· + 1)
  let (scalar, gap, rest) ← scanPlain s.flow indent [] .none text
  return ((s.allowKey gap.spansLines).push (.scalar scalar true), rest)

theorem length_of_takePlain? {s s' : Layout} {p : Placed} {rest rest' : List Placed}
    (hmark : atDocumentMark (p :: rest) = false) (hbegins : beginsPlain s.flow p.char rest = true)
    (h : s.takePlain? (p :: rest) = some (s', rest')) : rest'.length ≤ rest.length := by
  simp only [takePlain?, Option.bind_eq_bind, Option.bind_eq_some_iff] at h
  obtain ⟨⟨scalar, gap, after⟩, hscalar, h⟩ := h
  cases h
  exact length_of_scanPlain_cons hmark hbegins hscalar

def takeQuoted? (scanned : Option (String × List Placed)) (s : Layout) :
    Option (Layout × List Placed) := do
  let (scalar, rest) ← scanned
  return (s.push (.scalar scalar false), rest)

theorem length_of_takeQuoted? {scanned : Option (String × List Placed)} {s s' : Layout}
    {rest rest' : List Placed}
    (hscanned : ∀ scalar after, scanned = some (scalar, after) → after.length ≤ rest.length)
    (h : s.takeQuoted? scanned = some (s', rest')) : rest'.length ≤ rest.length := by
  simp only [takeQuoted?, Option.bind_eq_bind, Option.bind_eq_some_iff] at h
  obtain ⟨⟨scalar, after⟩, hscalar, h⟩ := h
  cases h
  exact hscanned _ _ hscalar

def takeBlock? (folds : Bool) (rest : List Placed) (s : Layout) :
    Option (Layout × List Placed) := do
  let s ← s.dropKey?
  let (scalar, rest) ← scanBlock folds s.indents.head? rest
  return ((s.allowKey true).push (.scalar scalar false), rest)

theorem length_of_takeBlock? {folds : Bool} {s s' : Layout} {rest rest' : List Placed}
    (h : s.takeBlock? folds rest = some (s', rest')) : rest'.length ≤ rest.length := by
  simp only [takeBlock?, Option.bind_eq_bind, Option.bind_eq_some_iff] at h
  obtain ⟨_, _, ⟨scalar, after⟩, hscalar, h⟩ := h
  cases h
  exact length_of_scanBlock hscalar

def takeDirective? (rest : List Placed) (s : Layout) : Option (Layout × List Placed) := do
  let s ← s.closeAll.dropKey?
  let (directive, rest) ← scanDirective rest
  let names ← s.names.declare? directive
  return (({ s with names }.allowKey false).push .directive, rest)

theorem length_of_takeDirective? {s s' : Layout} {rest rest' : List Placed}
    (h : s.takeDirective? rest = some (s', rest')) : rest'.length ≤ rest.length := by
  simp only [takeDirective?, Option.bind_eq_bind, Option.bind_eq_some_iff] at h
  obtain ⟨_, _, ⟨directive, after⟩, hdirective, _, _, h⟩ := h
  cases h
  exact length_of_scanDirective hdirective

/-- What was taken for a mark, with what follows the mark. -/
def alone (rest : List Placed) (taken : Option Layout) : Option (Layout × List Placed) :=
  taken.map fun s => (s, rest)

/-- A mark leaves all that follows it. -/
theorem length_of_alone {taken : Option Layout} {s' : Layout} {rest rest' : List Placed}
    (h : alone rest taken = some (s', rest')) : rest'.length ≤ rest.length := by
  obtain ⟨_, _, h⟩ := Option.map_eq_some_iff.1 h
  cases h
  exact Nat.le_refl _

/-- Take the token that begins with a character which has a meaning of its own only in some
places. -/
def takeWord? (p : Placed) (rest : List Placed) (s : Layout) : Option (Layout × List Placed) :=
  if p.char = '-' ∧ atGap rest then alone rest (s.takeEntryMark? p)
  else if p.char = '?' ∧ (s.flow ∨ atGap rest) then alone rest (s.takeKeyMark? p)
  else if p.char = ':' ∧ (s.flow ∨ atGap rest) then alone rest (s.takeValueMark? p)
  else if p.char = '|' ∧ !s.flow then s.takeBlock? false rest
  else if p.char = '>' ∧ !s.flow then s.takeBlock? true rest
  else if beginsPlain s.flow p.char rest then (s.startNode? p).bind (takePlain? (p :: rest))
  else none

theorem length_of_takeWord? {s s' : Layout} {p : Placed} {rest rest' : List Placed}
    (hmark : atDocumentMark (p :: rest) = false)
    (h : s.takeWord? p rest = some (s', rest')) : rest'.length ≤ rest.length := by
  unfold takeWord? at h
  split at h
  · exact length_of_alone h
  split at h
  · exact length_of_alone h
  split at h
  · exact length_of_alone h
  split at h
  · exact length_of_takeBlock? h
  split at h
  · exact length_of_takeBlock? h
  split at h
  · rename_i hbegins
    obtain ⟨started, hstarted, h⟩ := Option.bind_eq_some_iff.1 h
    rw [← flow_of_startNode? hstarted] at hbegins
    exact length_of_takePlain? hmark hbegins h
  · cases h

def takeToken? (p : Placed) (rest : List Placed) (s : Layout) : Option (Layout × List Placed) :=
  if p.column = 0 ∧ p.char = '%' then s.takeDirective? rest
  else if atDocumentMark (p :: rest) then
    alone (rest.drop 2)
      (s.takeDocumentMark? (if p.char = '-' then .documentStart else .documentEnd))
  else
    match p.char with
    | '[' => alone rest (s.enter? .flowSequenceStart p)
    | '\x7b' => alone rest (s.enter? .flowMappingStart p)
    | ']' => alone rest (s.leave? .flowSequenceEnd)
    | '\x7d' => alone rest (s.leave? .flowMappingEnd)
    | ',' => alone rest s.takeComma?
    | '&' => (s.startNode? p).bind (takeAnchor? rest)
    | '*' => (s.startNode? p).bind (takeAlias? rest)
    | '!' => (s.startNode? p).bind (takeTag? rest)
    | '\'' => (s.startNode? p).bind (takeQuoted? (scanSingleQuoted [] .none rest))
    | '"' => (s.startNode? p).bind (takeQuoted? (scanDoubleQuoted [] .none rest))
    | _ => s.takeWord? p rest

theorem length_of_takeToken? {s s' : Layout} {p : Placed} {rest rest' : List Placed}
    (h : s.takeToken? p rest = some (s', rest')) : rest'.length ≤ rest.length := by
  unfold takeToken? at h
  split at h
  · exact length_of_takeDirective? h
  split at h
  · have hdrop := length_of_alone h
    simp only [List.length_drop] at hdrop
    omega
  rename_i hmark
  split at h
  · exact length_of_alone h
  · exact length_of_alone h
  · exact length_of_alone h
  · exact length_of_alone h
  · exact length_of_alone h
  · obtain ⟨_, _, h⟩ := Option.bind_eq_some_iff.1 h
    exact length_of_takeAnchor? h
  · obtain ⟨_, _, h⟩ := Option.bind_eq_some_iff.1 h
    exact length_of_takeAlias? h
  · obtain ⟨_, _, h⟩ := Option.bind_eq_some_iff.1 h
    exact length_of_takeTag? h
  · obtain ⟨_, _, h⟩ := Option.bind_eq_some_iff.1 h
    exact length_of_takeQuoted? (fun _ _ => length_of_scanSingleQuoted) h
  · obtain ⟨_, _, h⟩ := Option.bind_eq_some_iff.1 h
    exact length_of_takeQuoted? (fun _ _ => length_of_scanDoubleQuoted) h
  · exact length_of_takeWord? (by simpa using hmark) h

/-- What is left after the space between tokens, and whether a key may begin there. A tab cannot
stand where a key may begin outside of brackets; there a key may begin in every line. A byte order
mark at the start of a line is passed over. -/
def skipSpace (flow keyAllowed : Bool) (s : List Placed) : Bool × List Placed :=
  match s with
  | [] => (keyAllowed, [])
  | p :: rest =>
      if p.isByteOrderMark ∨ p.char = ' ' ∨ (p.char = '\t' ∧ (flow ∨ !keyAllowed)) then
        skipSpace flow keyAllowed rest
      else if p.char = '#' then skipSpace flow keyAllowed (dropLine rest)
      else if isBreak p.char then skipSpace flow (keyAllowed || !flow) rest
      else (keyAllowed, p :: rest)
termination_by s.length
decreasing_by
  · simp
  · exact Nat.lt_succ_of_le (length_dropLine_le rest)
  · simp

theorem length_skipSpace_le (flow keyAllowed : Bool) (s : List Placed) :
    (skipSpace flow keyAllowed s).2.length ≤ s.length := by
  fun_induction skipSpace flow keyAllowed s with
  | case1 => simp
  | case2 => simp only [List.length_cons]; omega
  | case3 _ p rest _ _ ih =>
      have := length_dropLine_le rest
      simp only [List.length_cons]
      omega
  | case4 => simp only [List.length_cons]; omega
  | case5 => simp

/-- The tokens of a text from a place on. Every token takes some of the text. -/
def tokensFrom (s : Layout) (text : List Placed) : Option (List Token) :=
  match _hskip : skipSpace s.flow s.keyAllowed text with
  | (_, []) => s.closeAll.dropKey?.map fun s => (s.push .textEnd).tokens.toList
  | (keyAllowed, p :: rest) =>
      match { s with keyAllowed }.expireKeys? p with
      | none => none
      | some before =>
          match _htake : (before.closeDeeper p.column).takeToken? p rest with
          | none => none
          | some (after, rest) => tokensFrom after rest
termination_by text.length
decreasing_by
  have hskip := length_skipSpace_le s.flow s.keyAllowed text
  have htake := length_of_takeToken? _htake
  rw [_hskip] at hskip
  simp only [List.length_cons] at hskip
  omega

end Layout

def tokens? (text : String) : Option (List Token) :=
  (place? text).bind Layout.start.tokensFrom

end DateReviver.Yaml
