import DateReviver.Yaml.Character

/-!
# Folding of lines

A scalar may go over several lines. What separates its words then counts for less than is written:
blanks beside a line break are dropped, a single break is a space, and of several breaks in a row
the first is dropped. Blanks within a line are kept.
-/

namespace DateReviver.Yaml

/-- What separates two words: blanks, or line breaks with the blanks around them dropped. Both are
held the latest first. A first break that is written so as not to count is missing. -/
inductive Gap where
  | blanks (run : List Char)
  | breaks (first : Option Char) (others : List Char)

namespace Gap

def none : Gap :=
  blanks []

def add (c : Char) : Gap → Gap
  | blanks run => if isBreak c then breaks (some c) [] else blanks (c :: run)
  | breaks first others => if isBreak c then breaks first (c :: others) else breaks first others

def isEmpty : Gap → Bool
  | blanks run => run.isEmpty
  | breaks _ _ => false

def spansLines : Gap → Bool
  | blanks _ => false
  | breaks _ _ => true

/-- What is left of a gap, the latest first. -/
def folded : Gap → List Char
  | blanks run => run
  | breaks (some '\n') [] => [' ']
  | breaks (some '\n') others => others
  | breaks (some c) others => others ++ [c]
  | breaks .none others => others

/-- Append what is left of a gap to text that is held the latest first. -/
def appendTo (text : List Char) (gap : Gap) : List Char :=
  gap.folded ++ text

end Gap

end DateReviver.Yaml
