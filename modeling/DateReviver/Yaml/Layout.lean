import DateReviver.Yaml.Character
import DateReviver.Yaml.Names
import DateReviver.Yaml.Token

/-!
# Layout

Outside of brackets, indentation shows where sequences and mappings begin and end; inside,
brackets and commas do. A key needs no mark of its own if the colon after it stands in the same
line: it is then marked afterwards, at the place where it began. So the tokens come with a note of
the places where such a key may have begun, one for each level of brackets.
-/

namespace DateReviver.Yaml

/-- A place where a key without a mark may have begun. -/
structure KeyStart where
  line : Nat
  column : Nat
  offset : Nat
  /-- The number of tokens before it. -/
  tokensBefore : Nat
  /-- Whether nothing but a key can stand there. -/
  required : Bool

/-- The most bytes from the beginning of a key without a mark to its colon. -/
def maxKeyLength : Nat :=
  1024

/-- Whether a colon at a place comes too late for a key. -/
def KeyStart.isOver (start : KeyStart) (p : Placed) : Bool :=
  start.line < p.line || start.offset + maxKeyLength < p.offset

/-- The tokens up to a place in the text, and what matters for those that follow. -/
structure Layout where
  tokens : Array Token
  names : Names
  /-- The columns of the blocks that are open, the innermost first. -/
  indents : List Nat
  key : Option KeyStart
  /-- Where a key may have begun outside the brackets that are open, the innermost first. -/
  outerKeys : List (Option KeyStart)
  keyAllowed : Bool

namespace Layout

def start : Layout :=
  ⟨#[], .empty, [], none, [], true⟩

def flow (s : Layout) : Bool :=
  !s.outerKeys.isEmpty

def push (token : Token) (s : Layout) : Layout :=
  { s with tokens := s.tokens.push token }

def allowKey (allowed : Bool) (s : Layout) : Layout :=
  { s with keyAllowed := allowed }

def closeDeeper (column : Nat) (s : Layout) : Layout :=
  if s.flow then s
  else
    let closed := s.indents.takeWhile (column < ·)
    { s with
      tokens := s.tokens ++ closed.map fun _ => Token.blockEnd
      indents := s.indents.dropWhile (column < ·) }

def closeAll (s : Layout) : Layout :=
  if s.flow then s
  else { s with tokens := s.tokens ++ s.indents.map fun _ => Token.blockEnd, indents := [] }

/-- Open a block at a column unless that block is open. The token that shows it goes before those
that came after a place. -/
def openBlock (token : Token) (column tokensBefore : Nat) (s : Layout) : Layout :=
  if s.flow || s.indents.head?.any (column ≤ ·) then s
  else
    { s with
      tokens := s.tokens.insertIdxIfInBounds tokensBefore token
      indents := column :: s.indents }

/-- Give up the place where a key may have begun. -/
def dropKey? (s : Layout) : Option Layout :=
  if s.key.any KeyStart.required then none else some { s with key := none }

/-- Give up a place where a key may have begun if a colon would come too late for it. -/
def expire? (p : Placed) (key : Option KeyStart) : Option (Option KeyStart) :=
  match key with
  | none => some none
  | some start =>
      if start.isOver p then if start.required then none else some none
      else some (some start)

/-- Give up the places where a key may have begun for which a colon would come too late. -/
def expireKeys? (p : Placed) (s : Layout) : Option Layout := do
  let key ← expire? p s.key
  let outerKeys ← s.outerKeys.mapM (expire? p)
  return { s with key, outerKeys }

/-- Note that a key may begin at a place, if it may begin there. -/
def saveKey? (p : Placed) (s : Layout) : Option Layout :=
  if s.keyAllowed then do
    let required := !s.flow && s.indents.head? == some p.column
    let s ← s.dropKey?
    return { s with key := some ⟨p.line, p.column, p.offset, s.tokens.size, required⟩ }
  else some s

theorem flow_of_saveKey? {p : Placed} {s s' : Layout} (h : s.saveKey? p = some s') :
    s'.flow = s.flow := by
  unfold saveKey? dropKey? at h
  split at h
  · simp only [Option.bind_eq_bind, Option.bind_eq_some_iff] at h
    obtain ⟨s1, h1, h⟩ := h
    split at h1
    · cases h1
    · cases h1
      cases h
      rfl
  · cases h
    rfl

/-- Note that a key may begin with a node at a place. None may begin right after it. -/
def startNode? (p : Placed) (s : Layout) : Option Layout :=
  (s.saveKey? p).map (allowKey false)

theorem flow_of_startNode? {p : Placed} {s s' : Layout} (h : s.startNode? p = some s') :
    s'.flow = s.flow := by
  obtain ⟨saved, hsaved, rfl⟩ := Option.map_eq_some_iff.1 h
  have hflow : saved.flow = s.flow := flow_of_saveKey? hsaved
  exact hflow

def enter? (token : Token) (p : Placed) (s : Layout) : Option Layout := do
  let s ← s.saveKey? p
  return { s with key := none, outerKeys := s.key :: s.outerKeys, keyAllowed := true }.push token

/-- Close a bracket. What it closes may be a key. -/
def leave? (token : Token) (s : Layout) : Option Layout := do
  let s ← s.dropKey?
  let s :=
    match s.outerKeys with
    | [] => s
    | key :: outerKeys => { s with key, outerKeys }
  return (s.allowKey false).push token

def takeComma? (s : Layout) : Option Layout := do
  let s ← s.dropKey?
  return (s.allowKey true).push .flowEntry

def takeEntryMark? (p : Placed) (s : Layout) : Option Layout :=
  if s.flow || s.keyAllowed then do
    let s ← (s.openBlock .blockSequenceStart p.column s.tokens.size).dropKey?
    return (s.allowKey true).push .blockEntry
  else none

def takeKeyMark? (p : Placed) (s : Layout) : Option Layout :=
  if s.flow || s.keyAllowed then do
    let s ← (s.openBlock .blockMappingStart p.column s.tokens.size).dropKey?
    return (s.allowKey !s.flow).push .key
  else none

/-- Take the colon. A key without a mark is marked now. -/
def takeValueMark? (p : Placed) (s : Layout) : Option Layout :=
  match s.key with
  | some start =>
      let s := { s with tokens := s.tokens.insertIdxIfInBounds start.tokensBefore .key }
      let s := s.openBlock .blockMappingStart start.column start.tokensBefore
      some ({ s with key := none, keyAllowed := false }.push .value)
  | none =>
      if s.flow || s.keyAllowed then
        let s := s.openBlock .blockMappingStart p.column s.tokens.size
        some ((s.allowKey !s.flow).push .value)
      else none

def takeDocumentMark? (token : Token) (s : Layout) : Option Layout := do
  let s ← s.closeAll.dropKey?
  return (s.allowKey false).push token

end Layout

end DateReviver.Yaml
