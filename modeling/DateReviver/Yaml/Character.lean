/-!
# The characters of a YAML text

A text is a sequence of characters, each at its line and column: indentation is a matter of
columns, and some of the marks mean something only at the start of a line. Line breaks come in one
spelling here, except for the two separators of Unicode, which stand for themselves. Columns count
characters; where a length within a line matters, it is counted in bytes.
-/

namespace DateReviver.Yaml

def isAllowed (c : Char) : Bool :=
  c == '\t' || c == '\n' || c == '\r' || (' ' ≤ c && c ≤ '~') || c == '\x85' ||
    ('\xa0' ≤ c && c ≤ '\ufffd') || 0x10000 ≤ c.toNat

def isBlank (c : Char) : Bool :=
  c == ' ' || c == '\t'

def isBreak (c : Char) : Bool :=
  c == '\n' || c == '\u2028' || c == '\u2029'

/-- Whether a character may stand in the name of an anchor, a directive or a tag handle. -/
def isNameChar (c : Char) : Bool :=
  c.isAlphanum || c == '_' || c == '-'

/-- Write every line break as a line feed, but keep the separators of Unicode. -/
def unifyBreaks : List Char → List Char
  | [] => []
  | '\r' :: '\n' :: rest => '\n' :: unifyBreaks rest
  | c :: rest => (if c = '\r' ∨ c = '\x85' then '\n' else c) :: unifyBreaks rest

/-- A character and where it stands, counted from zero. -/
structure Placed where
  char : Char
  line : Nat
  column : Nat
  offset : Nat

/-- Place characters from a line, a column and an offset on. -/
def placeFrom (line column offset : Nat) : List Char → List Placed
  | [] => []
  | c :: rest =>
      ⟨c, line, column, offset⟩ ::
        if isBreak c then placeFrom (line + 1) 0 0 rest
        else placeFrom line (column + 1) (offset + c.utf8Size) rest

/-- The characters of a text in their places, if it may hold all of them. -/
def place? (text : String) : Option (List Placed) :=
  if text.toList.all isAllowed then some (placeFrom 0 0 0 (unifyBreaks text.toList)) else none

/-- Whether a byte order mark stands at the start of a line. It counts as a column of its line. -/
def Placed.isByteOrderMark (p : Placed) : Bool :=
  p.column == 0 && p.char == '\ufeff'

/-- Whether a word ends here: at a blank, a line break or the end of the text. -/
def atGap : List Placed → Bool
  | [] => true
  | p :: _ => isBlank p.char || isBreak p.char

/-- Whether a mark between documents stands here: three hyphens or three points alone at the
start of a line. -/
def atDocumentMark : List Placed → Bool
  | p :: q :: r :: rest =>
      p.column == 0 && (p.char == '-' || p.char == '.') && q.char == p.char && r.char == p.char &&
        atGap rest
  | _ => false

/-- What is left of a line and all that follows it. -/
def dropLine (s : List Placed) : List Placed :=
  s.dropWhile fun p => !isBreak p.char

theorem length_dropLine_le (s : List Placed) : (dropLine s).length ≤ s.length :=
  (List.dropWhile_sublist _).length_le

def dropBlanks (s : List Placed) : List Placed :=
  s.dropWhile fun p => isBlank p.char

theorem length_dropBlanks_le (s : List Placed) : (dropBlanks s).length ≤ s.length :=
  (List.dropWhile_sublist _).length_le

def takeName (s : List Placed) : String × List Placed :=
  (String.ofList ((s.takeWhile fun p => isNameChar p.char).map Placed.char),
    s.dropWhile fun p => isNameChar p.char)

theorem length_takeName_le (s : List Placed) : (takeName s).2.length ≤ s.length :=
  (List.dropWhile_sublist _).length_le

end DateReviver.Yaml
