import DateReviver.CommandLine.Host
import DateReviver.Path

/-!
# A file system as a value

Directories and the bytes of files under absolute paths, with a working directory. A path is
followed component by component: each one before the last must be a directory that is there.
Paths and names have a longest size in bytes, and a zero character, which would end a path, is
no part of any. The working directory may be gone: then it has no name, and nothing is in it or
can be made there.
-/

namespace DateReviver.CommandLine

/-- A place in the tree: the names that lead to it from the root. -/
abbrev Location := List String

structure FileTree where
  directories : List Location
  files : List (Location × ByteArray)
  working : Location

namespace FileTree

/-- The bytes of the longest path that can be followed. -/
def longestPath : Nat := 4095

/-- The bytes of the longest name in a directory. -/
def longestName : Nat := 255

def canHold (name : String) : Bool :=
  decide (name.utf8ByteSize ≤ longestName)

/-- The components of a path, if it can be followed. -/
def components? (path : String) : Option (List String) :=
  if path.utf8ByteSize ≤ longestPath ∧ '\x00' ∉ path.toList then
    some ((path.toList.splitOn '/').map String.ofList)
  else none

/-- Whether there is a directory; the root always is. -/
def isDirectory (t : FileTree) (place : Location) : Bool :=
  place.isEmpty || t.directories.contains place

def file? (t : FileTree) (place : Location) : Option ByteArray :=
  t.files.lookup place

def step (t : FileTree) (place : Location) (component : String) : Option Location :=
  if component = "" ∨ component = "." then some place
  else if component = ".." then some place.dropLast
  else if t.isDirectory (place ++ [component]) then some (place ++ [component])
  else none

def start (t : FileTree) (path : String) : Location :=
  if Path.isAbsolute path then [] else t.working

/-- The place of a file that a path names, whether or not it is there: its directory is. -/
def locate? (t : FileTree) (path : String) : Option Location :=
  match (components? path).map List.reverse with
  | none | some [] => none
  | some (name :: before) =>
      if name = "" ∨ name = "." ∨ name = ".." ∨ !canHold name then none
      else do
        let place ← before.reverse.foldlM t.step (t.start path)
        if t.isDirectory place then some (place ++ [name]) else none

/--
Make a directory in a directory that is there, unless it is there itself. A file in its place is
in the way, and its name must not be too long.
-/
def enter (state : FileTree × Location) (component : String) : Option (FileTree × Location) :=
  let (t, above) := state
  match t.step above component with
  | some place => some (t, place)
  | none =>
      let place := above ++ [component]
      if !t.isDirectory above || (t.file? place).isSome || !canHold component then none
      else some ({ t with directories := t.directories ++ [place] }, place)

def createDirectories? (t : FileTree) (path : String) : Option FileTree := do
  let (made, _) ← (← components? path).foldlM enter (t, t.start path)
  return made

def store (t : FileTree) (place : Location) (bytes : ByteArray) : FileTree :=
  { t with files := t.files.filter (fun entry => entry.1 != place) ++ [(place, bytes)] }

def readText (t : FileTree) (path : String) : Except String String :=
  match (t.locate? path).bind t.file? with
  | none => .error "no such file"
  | some bytes =>
      match String.fromUTF8? bytes with
      | none => .error "the file is not text in UTF-8"
      | some text => .ok text

/-- The tree after a text is stored as the file that a path names. -/
def writeText? (t : FileTree) (path text : String) : Option FileTree :=
  match t.locate? path with
  | none => none
  | some place => if t.isDirectory place then none else some (t.store place text.toUTF8)

/-- The path of the working directory, if it is there. -/
def workingDirectory (t : FileTree) : Except String String :=
  if t.isDirectory t.working then .ok ("/" ++ "/".intercalate t.working)
  else .error "no such directory"

def exists? (t : FileTree) (path : String) : Bool :=
  match t.locate? path with
  | some place => t.isDirectory place || (t.file? place).isSome
  | none => ((components? path).bind (List.foldlM t.step (t.start path))).isSome

def change (why : String) (attempt : FileTree → Option FileTree) :
    StateM FileTree (Except String Unit) := do
  match attempt (← get) with
  | none => pure (.error why)
  | some t =>
      set t
      pure (.ok ())

def host : Host (StateM FileTree) where
  workingDirectory := do
    return (← get).workingDirectory
  exists? path := do
    return (← get).exists? path
  readText path := do
    return (← get).readText path
  createDirectories path := change "no such directory can be made" (·.createDirectories? path)
  writeText path text := change "no such file can be made" (·.writeText? path text)

end FileTree

end DateReviver.CommandLine
