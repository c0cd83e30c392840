import DateReviver.Json.Node
import DateReviver.Reading.Encoding

/-!
# Documents in JSON

What is read of a JSON tree may be nested in at most 127 containers, and its strings must have a
text. In a schema position all of a value is read; elsewhere fields that are not asked for are
passed over, whatever stands in them.
-/

namespace DateReviver.Reading

open DateReviver.OpenApi

namespace Json

open DateReviver.Json (Node)

/-- A value with the number of containers that may still be entered. -/
structure Place where
  room : Nat
  node : Node

/-- The most containers that may be nested in one another. -/
def maxNesting : Nat :=
  127

mutual

/-- The meaning of a value, with the number of containers that may still be entered. -/
def valueWithin (room : Nat) : Node → Option Value
  | .null => some .null
  | .bool b => some (.bool b)
  | .number n => if n.isFinite then some .number else none
  | .text s => s.map .text
  | .list items => if room = 0 then none else (valuesWithin (room - 1) items).map .list
  | .record members =>
      if room = 0 then none else (membersWithin (room - 1) members).map .record

def valuesWithin (room : Nat) : List Node → Option (List Value)
  | [] => some []
  | node :: rest => do
      let value ← valueWithin room node
      let others ← valuesWithin room rest
      return value :: others

def membersWithin (room : Nat) : List (Option String × Node) → Option (List (Value × Value))
  | [] => some []
  | (name, node) :: rest => do
      let name ← name
      let value ← valueWithin room node
      let others ← membersWithin room rest
      return (.text name, value) :: others

end

def members? (room : Nat) (members : List (Option String × Node)) :
    Option (List (String × Place)) :=
  members.mapM fun member => member.1.map fun name => (name, ⟨room, member.2⟩)

def orderedFields (names : List String) (least : Nat) (items : List Place) :
    Option (String → Option Place) :=
  if least ≤ items.length ∧ items.length ≤ names.length then
    some fun name => (names.zip items).lookup name
  else none

def encoding : Encoding Option Place where
  present? := fun place =>
    match place.node with
    | .null => some none
    | _ => some (some place)
  text := fun place =>
    match place.node with
    | .text s => s
    | _ => none
  table := fun place =>
    match place.room, place.node with
    | room + 1, .record members => members? room members
    | _, _ => none
  fields := fun names least place =>
    match place.room, place.node with
    | room + 1, .record members => (members? room members).bind (namedFields names)
    | room + 1, .list items => orderedFields names least (items.map fun node => ⟨room, node⟩)
    | _, _ => none
  value := fun place => valueWithin place.room place.node

def parse? {α : Type} (read : Place → Option α) (text : String) : Option α :=
  (Node.parse? text).bind fun node => read ⟨maxNesting, node⟩

end Json

end DateReviver.Reading
