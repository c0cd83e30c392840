import DateReviver.Reading.Encoding
import DateReviver.Yaml.Grammar
import DateReviver.Yaml.Scalar

/-!
# Documents in YAML

In a schema position a plain scalar means what it looks like, unless a tag says otherwise, and a
tag of the document's own has no meaning. Elsewhere any scalar is its text, tags are passed over,
and so are fields that are not asked for. A node that is read may be nested in at most 128
collections.

Aliases can make a small text stand for a large document, and even for an endless one. Following
them is counted, and it stops at a hundred times the number of marks and scalars in the text.
-/

namespace DateReviver.Reading

namespace Yaml

open DateReviver.Yaml (Node Tag Properties)

/-- The meaning of an integer; outer nothing if it is out of the range of integers, inner nothing
if it is too large for a number of a document. -/
def integerMeaning? (text : String) : Option (Option Value) := do
  let n ← DateReviver.Yaml.integer? text
  if n.negative then
    if n.magnitude ≤ Nat.pow 2 63 then some (some .number)
    else if n.magnitude ≤ Nat.pow 2 127 then some none
    else none
  else if n.magnitude < Nat.pow 2 64 then some (some (.natural n.magnitude))
  else if n.magnitude < Nat.pow 2 128 then some none
  else none

def plainMeaning? (text : String) : Option Value :=
  if text.isEmpty || DateReviver.Yaml.isNull text then some .null
  else
    match DateReviver.Yaml.bool? text with
    | some b => some (.bool b)
    | none =>
        match integerMeaning? text with
        | some meaning => meaning
        | none =>
            if !DateReviver.Yaml.hasNeedlessZero text && DateReviver.Yaml.isFloat text then
              some .number
            else some (.text text)

def scalarMeaning? (tag : Option Tag) (text : String) (plain : Bool) : Option Value :=
  match tag with
  | some .null => if DateReviver.Yaml.isNull text then some .null else none
  | some .bool => (DateReviver.Yaml.bool? text).map .bool
  | some .int => (integerMeaning? text).join
  | some .float => if DateReviver.Yaml.isFloat text then some .number else none
  | some .custom => none
  | some .other => some (.text text)
  | some .garbled | none => if plain then plainMeaning? text else some (.text text)

def isCollectionTag (tag : Option Tag) : Bool :=
  tag != some .custom

/-- What aliases stand for, and how often they may be followed. -/
structure Scope where
  /-- The nodes by number; of those with the same number the first counts. -/
  anchors : List (Nat × Node)
  limit : Nat

/-- A reading that counts how often it has followed an alias. -/
abbrev Counted : Type → Type :=
  StateT Nat Option

def Scope.follow (scope : Scope) : Node → Counted Node
  | .aliasTo number => do
      let followed ← get
      if followed < scope.limit then
        set (followed + 1)
        match scope.anchors.lookup number with
        | some node => pure node
        | none => failure
      else failure
  | node => pure node

/-- A node with the number of collections that may still be entered. -/
structure Place where
  room : Nat
  node : Node

/-- The most collections that may be nested in one another. -/
def maxNesting : Nat :=
  128

def ofOption {α : Type} : Option α → Counted α
  | some result => pure result
  | none => failure

/-- The meaning of a node, with the number of collections that may still be entered. -/
def valueWithin (scope : Scope) : Nat → Node → Counted Value
  | 0, node => do
      match ← scope.follow node with
      | .scalar properties text plain => ofOption (scalarMeaning? properties.tag text plain)
      | _ => failure
  | room + 1, node => do
      match ← scope.follow node with
      | .scalar properties text plain => ofOption (scalarMeaning? properties.tag text plain)
      | .sequence properties items =>
          if isCollectionTag properties.tag then .list <$> items.mapM (valueWithin scope room)
          else failure
      | .mapping properties entries =>
          if isCollectionTag properties.tag then
            .record <$> entries.mapM fun entry => do
              let key ← valueWithin scope room entry.1
              let value ← valueWithin scope room entry.2
              pure (key, value)
          else failure
      | .aliasTo _ => failure

def text (scope : Scope) (node : Node) : Counted String := do
  match ← scope.follow node with
  | .scalar _ text _ => pure text
  | _ => failure

/-- The entries of a mapping. A node that is left out has none. -/
def table (scope : Scope) (place : Place) : Counted (List (String × Place)) := do
  match ← scope.follow place.node, place.room with
  | .mapping _ entries, room + 1 =>
      entries.mapM fun entry => do
        let key ← text scope entry.1
        pure (key, ⟨room, entry.2⟩)
  | .scalar _ "" true, _ => pure []
  | _, _ => failure

/-- Whether a scalar stands for absence where a value is optional. A tag that asks for null must
be right. -/
def isAbsent? (tag : Option Tag) (text : String) (plain : Bool) : Option Bool :=
  if plain then
    match tag with
    | some .null => if DateReviver.Yaml.isNull text then some true else none
    | some _ => some false
    | none => some (text.isEmpty || DateReviver.Yaml.isNull text)
  else some false

def present? (scope : Scope) (place : Place) : Counted (Option Place) := do
  match ← scope.follow place.node with
  | .scalar properties text plain =>
      let absent ← ofOption (isAbsent? properties.tag text plain)
      pure (if absent then none else some ⟨place.room, .scalar properties text plain⟩)
  | node => pure (some ⟨place.room, node⟩)

def encoding (scope : Scope) : Encoding Counted Place where
  present? := present? scope
  text := fun place => text scope place.node
  table := table scope
  fields := fun names _ place => do ofOption (namedFields names (← table scope place))
  value := fun place => valueWithin scope place.room place.node

/-- How often aliases may be followed for each mark or scalar of a text. -/
def followsPerMark : Nat :=
  100

def parse? {α : Type} (read : Encoding Counted Place → Place → Counted α) (text : String) :
    Option α := do
  let root ← Node.parse? text
  let scope := ⟨root.anchors.reverse, followsPerMark * root.extent⟩
  let (result, _) ← (read (encoding scope) ⟨maxNesting, root⟩).run 0
  return result

end Yaml

end DateReviver.Reading
