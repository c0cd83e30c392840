/-!
# File paths

Paths as texts: what names the file at the end of one, the directory that it stands in, and how
one path is taken relative to another. Slashes and single dots at the end name nothing.
-/

namespace DateReviver.Path

/-- A path from its last character to its first, without the slashes and single dots at the end.
A slash that is all of the path stays. -/
def dropEnd : List Char → List Char
  | ['/'] => ['/']
  | '/' :: before => dropEnd before
  | '.' :: '/' :: before => dropEnd ('/' :: before)
  | path => path

/-- A path from its last character to its first, parted into its last component and what stands
before that. -/
def splitLast? (path : String) : Option (List Char × List Char) :=
  match dropEnd path.toList.reverse with
  | [] => none
  | ['/'] => none
  | rest => some (rest.takeWhile (· != '/'), rest.dropWhile (· != '/'))

/-- The directory that a path leads through; none for the root and for the empty path. -/
def parent? (path : String) : Option String :=
  (splitLast? path).map fun parts => String.ofList (dropEnd parts.2).reverse

/-- The name of the file that a path leads to. -/
def fileName? (path : String) : Option (List Char) :=
  match splitLast? path with
  | none => none
  | some (last, _) => if last = ['.'] ∨ last = ['.', '.'] then none else some last.reverse

/-- What follows the last dot of a file name, unless the name starts with that dot. -/
def extension? (path : String) : Option (List Char) :=
  match fileName? path with
  | none => none
  | some name =>
      match name.reverse.dropWhile (· != '.') with
      | [] => none
      | [_] => none
      | _ => some (name.reverse.takeWhile (· != '.')).reverse

def isAbsolute (path : String) : Bool :=
  path.toList.head? == some '/'

def join (directory path : String) : String :=
  if isAbsolute path || directory.isEmpty then path
  else if directory.toList.getLast? == some '/' then directory ++ path
  else directory ++ "/" ++ path

end DateReviver.Path
