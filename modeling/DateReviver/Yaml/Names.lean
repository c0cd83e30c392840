import DateReviver.Yaml.Tag

/-!
# The names in a document

Handles of tags and anchors are known once the text has declared them. An anchor is known by a
number: how many different names were anchors before it. So a name that is used again does not
add to the count, and the next new name shares its number; a number means the last node that has
it.
-/

namespace DateReviver.Yaml

structure Names where
  versioned : Bool
  handles : List (String × List UInt8)
  anchors : List (String × Nat)

namespace Names

def empty : Names :=
  ⟨false, [], []⟩

/-- What handles stand for unless the document declares otherwise. -/
def commonHandles : List (String × List UInt8) :=
  [("!", bytesOf "!"), ("!!", bytesOf coreStart)]

/-- Take in a directive. The version and each handle are declared once at most, and the version is
one of those that are understood. -/
def declare? (names : Names) : Directive → Option Names
  | .version major minor =>
      if !names.versioned && major == 1 && (minor == 1 || minor == 2) then
        some { names with versioned := true }
      else none
  | .handle name start =>
      if (names.handles.lookup name).isSome then none
      else some { names with handles := (name, start) :: names.handles }

def tag? (names : Names) (tag : TagName) : Option Tag :=
  if tag.handle = "" then some (.ofBytes tag.rest)
  else
    match names.handles.lookup tag.handle <|> commonHandles.lookup tag.handle with
    | some start => some (.ofBytes (start ++ tag.rest))
    | none => none

/-- The number of an anchor that stands here, and the names with it. -/
def anchor (names : Names) (name : String) : Nat × Names :=
  let number := names.anchors.length
  let others := names.anchors.filter fun known => known.1 != name
  (number, { names with anchors := (name, number) :: others })

/-- The number of the anchor that a name means here. -/
def anchor? (names : Names) (name : String) : Option Nat :=
  names.anchors.lookup name

end Names

end DateReviver.Yaml
