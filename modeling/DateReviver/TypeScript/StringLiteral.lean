/-!
# String literals

A string between double quotes, in which a backslash and a double quote are written with a
backslash before them and every other character stands for itself.
-/

namespace DateReviver.TypeScript

def escapeChars : List Char → List Char
  | [] => []
  | c :: rest =>
      if c = '\\' ∨ c = '"' then '\\' :: c :: escapeChars rest
      else c :: escapeChars rest

def escape (s : String) : String :=
  String.ofList (escapeChars s.toList)

def quote (s : String) : String :=
  "\"" ++ escape s ++ "\""

end DateReviver.TypeScript
