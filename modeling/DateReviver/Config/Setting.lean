import DateReviver.Config.Token

/-!
# Settings

The entries of a configuration file: one to a line, a key and a value that is a text, a truth
value or a list of texts.
-/

namespace DateReviver.Config

inductive Setting where
  | text (value : String)
  | bool (value : Bool)
  | texts (values : List String)

inductive Expecting where
  /-- A key, or the end of an empty line. -/
  | key
  | equals (key : String)
  | value (key : String)
  /-- An item of a list, or its end. The items so far come with it, the latest first. -/
  | item (key : String) (items : List String)
  | afterItem (key : String) (items : List String)
  | lineEnd

/-- The entries that are complete, the latest first, and what is expected next. -/
structure Progress where
  entries : List (String × Setting)
  expecting : Expecting

def Progress.complete (p : Progress) (key : String) (value : Setting) : Progress :=
  ⟨(key, value) :: p.entries, .lineEnd⟩

def Progress.take (p : Progress) (token : Token) : Option Progress :=
  match p.expecting, token with
  | .key, .newline => some p
  | .key, .word key => some { p with expecting := .equals key }
  | .key, .line key => some { p with expecting := .equals key }
  | .equals key, .equals => some { p with expecting := .value key }
  | .value key, .word "true" => some (p.complete key (.bool true))
  | .value key, .word "false" => some (p.complete key (.bool false))
  | .value key, .line text => some (p.complete key (.text text))
  | .value key, .block text => some (p.complete key (.text text))
  | .value key, .beginList => some { p with expecting := .item key [] }
  | .item _ _, .newline => some p
  | .item key items, .line text => some { p with expecting := .afterItem key (text :: items) }
  | .item key items, .block text => some { p with expecting := .afterItem key (text :: items) }
  | .item key items, .endList => some (p.complete key (.texts items.reverse))
  | .afterItem _ _, .newline => some p
  | .afterItem key items, .comma => some { p with expecting := .item key items }
  | .afterItem key items, .endList => some (p.complete key (.texts items.reverse))
  | .lineEnd, .newline => some { p with expecting := .key }
  | _, _ => none

/-- The entries of a text, if it has no other lines. A byte order mark may stand before them. -/
def settings? (text : String) : Option (List (String × Setting)) := do
  let tokens ← tokens?
    (match text.toList with
      | '\ufeff' :: rest => rest
      | s => s)
  let progress ← tokens.foldlM Progress.take ⟨[], .key⟩
  match progress.expecting with
  | .key | .lineEnd => some progress.entries.reverse
  | _ => none

end DateReviver.Config
