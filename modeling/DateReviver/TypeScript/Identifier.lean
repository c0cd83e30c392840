import DateReviver.Text.LetterCase
import DateReviver.TypeScript.Syntax

/-!
# Identifiers

How a name from a document becomes an identifier, and how a property of any name is reached.
-/

namespace DateReviver.TypeScript

open DateReviver.Text

def reservedWords : List String :=
  ["break", "case", "catch", "class", "const", "continue", "debugger", "default", "delete", "do",
   "else", "enum", "export", "extends", "false", "finally", "for", "function", "if", "import",
   "in", "instanceof", "new", "null", "return", "super", "switch", "this", "throw", "true", "try",
   "typeof", "var", "void", "while", "with", "yield", "let", "static", "implements", "interface",
   "package", "private", "protected", "public", "await", "async"]

def isReserved (word : String) : Bool :=
  reservedWords.contains word

/-- A character that may start an identifier: a letter of ASCII, `_` or `$`. -/
def isIdentStart (c : Char) : Bool :=
  c.isAlpha || c == '_' || c == '$'

/-- A character that may continue an identifier: one that may start it, or a digit of ASCII. -/
def isIdentPart (c : Char) : Bool :=
  c.isAlphanum || c == '_' || c == '$'

/-- Whether a property of this name cannot be written after a dot. -/
def needsBracket (name : String) : Bool :=
  match name.toList with
  | [] => true
  | c :: rest => !(isIdentStart c && rest.all isIdentPart)

/-- The property of an object, after a dot where its name allows it, else between brackets. -/
def Expr.property (object : Expr) (name : String) : Expr :=
  if needsBracket name then .index object (.text name) else .member object name

def isSeparator (c : Char) : Bool :=
  c == '-' || c == '.' || c == ' '

/-- Join the words of a name: separators are dropped, and the first character after some of them
is put in upper case. `raise` says that separators have just been passed. -/
def joinWords (raise : Bool) : List Char → List Char
  | [] => []
  | c :: rest =>
      if isSeparator c then joinWords true rest
      else (if raise then upperChar c else [c]) ++ joinWords false rest

/-- Whether a word needs a mark in front of it before it can be an identifier. -/
def needsMark (word : List Char) : Bool :=
  (match word with
    | [] => false
    | c :: _ => c.isDigit)
  || isReserved (String.ofList word)

def identifierChars (name : List Char) : List Char :=
  match joinWords false name with
  | [] => "_empty".toList
  | word => if needsMark word then '_' :: word else word

/-- The identifier of a name: its words joined, with `_` in front of a digit or of a reserved
word. A name without any word becomes `_empty`. -/
def identifier (name : String) : String :=
  String.ofList (identifierChars name.toList)

end DateReviver.TypeScript
