import DateReviver.Json.Token

/-!
# JSON trees

A JSON text as a tree, with whatever it writes: numerals as they are spelled, strings that have no
text, names given twice. What of it has a meaning is decided where the tree is read.

The tree is built by a machine that takes one token at a time and keeps the containers that are
open, so that nesting has no limit.
-/

namespace DateReviver.Json

inductive Node where
  | null
  | bool (value : Bool)
  | number (value : Numeral)
  | text (value : Option String)
  | list (items : List Node)
  | record (members : List (Option String × Node))

/-- A container that is open, with what stands in it so far, the latest first. -/
inductive Container where
  | list (items : List Node)
  | record (members : List (Option String × Node)) (name : Option String)

/-- What is expected next. The containers that are open come with it, the innermost first. -/
inductive Expecting where
  | value (stack : List Container)
  /-- The first item of a list, or its end. -/
  | firstItem (stack : List Container)
  /-- The first name of a record, or its end. -/
  | firstName (stack : List Container)
  | name (members : List (Option String × Node)) (stack : List Container)
  | colon (members : List (Option String × Node)) (name : Option String)
    (stack : List Container)
  /-- What follows a value. -/
  | afterValue (value : Node) (stack : List Container)

def Expecting.beginValue (stack : List Container) : Token → Option Expecting
  | .null => some (.afterValue .null stack)
  | .bool b => some (.afterValue (.bool b) stack)
  | .number n => some (.afterValue (.number n) stack)
  | .text s => some (.afterValue (.text s) stack)
  | .beginList => some (.firstItem stack)
  | .beginRecord => some (.firstName stack)
  | _ => none

def Expecting.take : Expecting → Token → Option Expecting
  | .value stack, token => beginValue stack token
  | .firstItem stack, .endList => some (.afterValue (.list []) stack)
  | .firstItem stack, token => beginValue (.list [] :: stack) token
  | .firstName stack, .endRecord => some (.afterValue (.record []) stack)
  | .firstName stack, .text s => some (.colon [] s stack)
  | .name members stack, .text s => some (.colon members s stack)
  | .colon members s stack, .colon => some (.value (.record members s :: stack))
  | .afterValue v (.list items :: stack), .comma => some (.value (.list (v :: items) :: stack))
  | .afterValue v (.list items :: stack), .endList =>
      some (.afterValue (.list (v :: items).reverse) stack)
  | .afterValue v (.record members s :: stack), .comma => some (.name ((s, v) :: members) stack)
  | .afterValue v (.record members s :: stack), .endRecord =>
      some (.afterValue (.record ((s, v) :: members).reverse) stack)
  | _, _ => none

def Node.ofTokens? (tokens : List Token) : Option Node :=
  match tokens.foldlM Expecting.take (.value []) with
  | some (.afterValue value []) => some value
  | _ => none

def Node.parse? (text : String) : Option Node :=
  (tokens? text.toList).bind Node.ofTokens?

end DateReviver.Json
