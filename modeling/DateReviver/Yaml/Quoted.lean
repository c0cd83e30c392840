import DateReviver.Text.Hex
import DateReviver.Yaml.Fold

/-!
# Quoted scalars

In single quotes only the quote itself is special: it is written twice. In double quotes a
backslash begins an escape, and before a line break it joins the lines. No mark between documents
may stand inside of quotes.
-/

namespace DateReviver.Yaml

def shortEscape? : Char → Option Char
  | '0' => some '\x00'
  | 'a' => some '\x07'
  | 'b' => some '\x08'
  | 't' => some '\t'
  | '\t' => some '\t'
  | 'n' => some '\n'
  | 'v' => some '\x0b'
  | 'f' => some '\x0c'
  | 'r' => some '\r'
  | 'e' => some '\x1b'
  | ' ' => some ' '
  | '"' => some '"'
  | '/' => some '/'
  | '\\' => some '\\'
  | 'N' => some '\x85'
  | '_' => some '\xa0'
  | 'L' => some '\u2028'
  | 'P' => some '\u2029'
  | _ => none

/-- The number of digits that an escape by code has. -/
def escapeDigits? : Char → Option Nat
  | 'x' => some 2
  | 'u' => some 4
  | 'U' => some 8
  | _ => none

/-- The text of a scalar after its opening single quote, and what follows its closing quote. The
text so far is held the latest first. -/
def scanSingleQuoted (text : List Char) (gap : Gap) :
    List Placed → Option (String × List Placed)
  | [] => none
  | p :: rest =>
      if isBlank p.char || isBreak p.char then scanSingleQuoted text (gap.add p.char) rest
      else if atDocumentMark (p :: rest) then none
      else if p.char = '\'' then
        match rest with
        | ⟨'\'', _, _, _⟩ :: rest => scanSingleQuoted ('\'' :: gap.appendTo text) .none rest
        | rest => some (String.ofList (gap.appendTo text).reverse, rest)
      else scanSingleQuoted (p.char :: gap.appendTo text) .none rest

theorem length_of_scanSingleQuoted {text : List Char} {gap : Gap} {s rest : List Placed}
    {scalar : String} (h : scanSingleQuoted text gap s = some (scalar, rest)) :
    rest.length ≤ s.length := by
  fun_induction scanSingleQuoted text gap s <;> grind

/-- The text of a scalar after its opening double quote, and what follows its closing quote. The
text so far is held the latest first. -/
def scanDoubleQuoted (text : List Char) (gap : Gap) (s : List Placed) :
    Option (String × List Placed) :=
  match s with
  | [] => none
  | p :: rest =>
      if isBlank p.char || isBreak p.char then scanDoubleQuoted text (gap.add p.char) rest
      else if atDocumentMark (p :: rest) then none
      else if p.char = '"' then some (String.ofList (gap.appendTo text).reverse, rest)
      else if p.char = '\\' then
        match rest with
        | [] => none
        | e :: rest =>
            if isBreak e.char then scanDoubleQuoted (gap.appendTo text) (.breaks none []) rest
            else
              match escapeDigits? e.char with
              | some count => do
                  let c ← Text.hexChar? ((rest.take count).map Placed.char)
                  scanDoubleQuoted (c :: gap.appendTo text) .none (rest.drop count)
              | none => do
                  let c ← shortEscape? e.char
                  scanDoubleQuoted (c :: gap.appendTo text) .none rest
      else scanDoubleQuoted (p.char :: gap.appendTo text) .none rest
termination_by s.length
decreasing_by all_goals simp_wf; try omega

theorem length_of_scanDoubleQuoted {text : List Char} {gap : Gap} {s rest : List Placed}
    {scalar : String} (h : scanDoubleQuoted text gap s = some (scalar, rest)) :
    rest.length ≤ s.length := by
  fun_induction scanDoubleQuoted text gap s <;> grind [Option.bind_eq_some_iff]

end DateReviver.Yaml
