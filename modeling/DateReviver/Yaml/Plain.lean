import DateReviver.Yaml.Fold

/-!
# Plain scalars

A scalar without quotes ends where something stands that cannot belong to it: a colon at the end
of a word, a comment, a line that is not indented deep enough, a mark between documents, and
between brackets also a comma or a bracket.
-/

namespace DateReviver.Yaml

/-- Whether a character means something of its own at the front of a token. -/
def isIndicator (c : Char) : Bool :=
  "-?:,[]\x7b\x7d#&*!|>'\"%@`".toList.contains c

/-- Whether a character separates or closes what stands between brackets. -/
def isFlowIndicator (c : Char) : Bool :=
  ",[]\x7b\x7d".toList.contains c

/-- Whether a plain scalar begins here. Of the indicators a hyphen may begin one if no blank
follows, and outside of brackets so may a question mark and a colon within a word. -/
def beginsPlain (flow : Bool) (c : Char) (rest : List Placed) : Bool :=
  !(isBlank c || isBreak c || isIndicator c) ||
    (c == '-' && !rest.head?.any fun p => isBlank p.char) ||
    (!flow && (c == '?' || c == ':') && !atGap rest)

/-- Whether a plain scalar that must be indented to a column ends here, after a gap. -/
def endsPlain (flow : Bool) (indent : Nat) (gap : Gap) (p : Placed) (rest : List Placed) : Bool :=
  (!gap.isEmpty && !flow && p.column < indent) ||
    atDocumentMark (p :: rest) ||
    (!gap.isEmpty && p.char == '#') ||
    (p.char == ':' && atGap rest) ||
    (flow && isFlowIndicator p.char)

/-- Whether a colon between brackets cannot stand before a character. -/
def colonBlocked (p : Placed) : Bool :=
  p.char == '?' || isFlowIndicator p.char

/-- The text of a plain scalar that must be indented to a column, the gap that follows it, and
what comes then. The text so far is held the latest first. A tab cannot indent a further line. -/
def scanPlain (flow : Bool) (indent : Nat) (text : List Char) (gap : Gap) :
    List Placed → Option (String × Gap × List Placed)
  | [] => some (String.ofList text.reverse, gap, [])
  | p :: rest =>
      if isBlank p.char || isBreak p.char then
        if gap.spansLines && p.char == '\t' && p.column < indent then none
        else scanPlain flow indent text (gap.add p.char) rest
      else if flow && p.char == ':' && rest.head?.any colonBlocked then none
      else if endsPlain flow indent gap p rest then
        some (String.ofList text.reverse, gap, p :: rest)
      else scanPlain flow indent (p.char :: gap.appendTo text) .none rest

theorem length_of_scanPlain {flow : Bool} {indent : Nat} {text : List Char} {gap gap' : Gap}
    {s rest : List Placed} {scalar : String}
    (h : scanPlain flow indent text gap s = some (scalar, gap', rest)) :
    rest.length ≤ s.length := by
  fun_induction scanPlain flow indent text gap s <;> grind

theorem endsPlain_of_beginsPlain {flow : Bool} {indent : Nat} {p : Placed} {rest : List Placed}
    (hmark : atDocumentMark (p :: rest) = false)
    (hbegins : beginsPlain flow p.char rest = true) :
    endsPlain flow indent .none p rest = false := by
  have hgap : Gap.none.isEmpty = true := rfl
  unfold beginsPlain isIndicator at hbegins
  unfold endsPlain isFlowIndicator
  simp only [hmark, hgap]
  simp at hbegins ⊢
  grind

/-- A plain scalar takes its first character. -/
theorem length_of_scanPlain_cons {flow : Bool} {indent : Nat} {p : Placed} {gap : Gap}
    {tail rest : List Placed} {scalar : String} (hmark : atDocumentMark (p :: tail) = false)
    (hbegins : beginsPlain flow p.char tail = true)
    (h : scanPlain flow indent [] .none (p :: tail) = some (scalar, gap, rest)) :
    rest.length ≤ tail.length := by
  unfold scanPlain at h
  rw [endsPlain_of_beginsPlain hmark hbegins] at h
  split at h
  · split at h
    · cases h
    · exact length_of_scanPlain h
  · split at h
    · cases h
    · exact length_of_scanPlain h

end DateReviver.Yaml
