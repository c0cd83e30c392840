import DateReviver.Text.Hex
import DateReviver.Yaml.Character

/-!
# Tags and the directives

A tag says what a value is. It is written as a handle, which stands for the start of the tag, and
the rest; a directive before the document says what a handle stands for. As an escape can write
any byte, a tag is a sequence of bytes; what follows a byte of zero does not count.
-/

namespace DateReviver.Yaml

inductive Tag where
  | null
  | bool
  | int
  | float
  /-- A tag of the document's own, such as `!`. -/
  | custom
  /-- A tag of the document's own that is no text. -/
  | garbled
  | other
deriving DecidableEq

/-- The start of the tags that YAML itself defines. -/
def coreStart : String :=
  "tag:yaml.org,2002:"

def Tag.ofBytes (bytes : List UInt8) : Tag :=
  match String.fromUTF8? bytes.toByteArray with
  | some text =>
      if text = coreStart ++ "null" then .null
      else if text = coreStart ++ "bool" then .bool
      else if text = coreStart ++ "int" then .int
      else if text = coreStart ++ "float" then .float
      else if text.toList.head? = some '!' then .custom
      else .other
  | none => if bytes.head? = some 33 then .garbled else .other

def bytesOf (text : String) : List UInt8 :=
  text.toUTF8.toList

/-- The part of a tag that counts. -/
def upToZero (bytes : List UInt8) : List UInt8 :=
  bytes.takeWhile (· != 0)

/-- Whether a character may stand in a tag as itself. Where the tag is closed by a mark, commas
and square brackets may. -/
def isTagChar (closed : Bool) (c : Char) : Bool :=
  isNameChar c || ";/?:@&=+$.!~*'()".toList.contains c || (closed && ",[]".toList.contains c)

/-- The number of bytes that must follow a byte of a character that is written by escapes, if it
can stand there: `expected` are still to come, none at the start of a character. -/
def continuation? (expected : Nat) (byte : Nat) : Option Nat :=
  match expected with
  | 0 =>
      if byte < 0x80 then some 0
      else if byte < 0xC0 then none
      else if byte < 0xE0 then some 1
      else if byte < 0xF0 then some 2
      else if byte < 0xF8 then some 3
      else none
  | more + 1 => if 0x80 ≤ byte ∧ byte < 0xC0 then some more else none

/-- The bytes of a tag at the front, and what follows them. Escapes come in runs that write a
character each: `expected` bytes of the one that has begun are still to come. -/
def scanTagBytes (closed : Bool) (expected : Nat) :
    List Placed → Option (List UInt8 × List Placed)
  | ⟨'%', _, _, _⟩ :: high :: low :: rest => do
      let byte ← Text.hexNumber? [high.char, low.char]
      let expected ← continuation? expected byte
      let (bytes, rest) ← scanTagBytes closed expected rest
      return (byte.toUInt8 :: bytes, rest)
  | p :: rest =>
      if expected ≠ 0 ∨ p.char = '%' then none
      else if isTagChar closed p.char then do
        let (bytes, rest) ← scanTagBytes closed 0 rest
        return (p.char.toNat.toUInt8 :: bytes, rest)
      else some ([], p :: rest)
  | [] => if expected = 0 then some ([], []) else none

theorem length_of_scanTagBytes {closed : Bool} {expected : Nat} {s rest : List Placed}
    {bytes : List UInt8} (h : scanTagBytes closed expected s = some (bytes, rest)) :
    rest.length ≤ s.length := by
  fun_induction scanTagBytes closed expected s generalizing bytes rest <;>
    grind [Option.bind_eq_some_iff]

/-- A tag as it is written: a handle, empty if the whole tag follows, and the rest. -/
structure TagName where
  handle : String
  rest : List UInt8

/-- A tag after its exclamation mark, and what follows it. -/
def scanTagName (s : List Placed) : Option (TagName × List Placed) :=
  match s with
  | ⟨'<', _, _, _⟩ :: s => do
      let (bytes, rest) ← scanTagBytes true 0 s
      match bytes, rest with
      | _ :: _, ⟨'>', _, _, _⟩ :: rest => some (⟨"", upToZero bytes⟩, rest)
      | _, _ => none
  | s =>
      match takeName s with
      | (name, ⟨'!', _, _, _⟩ :: s) => do
          let (bytes, rest) ← scanTagBytes false 0 s
          if bytes.isEmpty then none else some (⟨"!" ++ name ++ "!", upToZero bytes⟩, rest)
      | (name, s) => do
          let (bytes, rest) ← scanTagBytes false 0 s
          let bytes := upToZero (bytesOf name ++ bytes)
          if bytes.isEmpty then some (⟨"", bytesOf "!"⟩, rest) else some (⟨"!", bytes⟩, rest)

theorem length_of_scanTagName {s rest : List Placed} {tag : TagName}
    (h : scanTagName s = some (tag, rest)) : rest.length ≤ s.length := by
  unfold scanTagName at h
  split at h
  · obtain ⟨⟨bytes, rest'⟩, hbytes, h⟩ := Option.bind_eq_some_iff.1 h
    have := length_of_scanTagBytes hbytes
    grind
  · have hname := length_takeName_le s
    split at h
    · obtain ⟨⟨bytes, rest'⟩, hbytes, h⟩ := Option.bind_eq_some_iff.1 h
      have := length_of_scanTagBytes hbytes
      grind
    · obtain ⟨⟨bytes, rest'⟩, hbytes, h⟩ := Option.bind_eq_some_iff.1 h
      have := length_of_scanTagBytes hbytes
      grind

/-- A tag after its exclamation mark, and what follows it: a gap, or between brackets a comma. -/
def scanTag (flow : Bool) (s : List Placed) : Option (TagName × List Placed) := do
  let (tag, rest) ← scanTagName s
  if atGap rest || (flow && rest.head?.any fun p => p.char == ',') then some (tag, rest) else none

theorem length_of_scanTag {flow : Bool} {s rest : List Placed} {tag : TagName}
    (h : scanTag flow s = some (tag, rest)) : rest.length ≤ s.length := by
  simp only [scanTag, Option.bind_eq_bind, Option.bind_eq_some_iff] at h
  obtain ⟨⟨name, after⟩, hname, h⟩ := h
  have := length_of_scanTagName hname
  split at h
  · cases h; exact this
  · cases h

inductive Directive where
  | version (major minor : Nat)
  | handle (name : String) (start : List UInt8)

/-- The most digits that a number of a version may have. -/
def maxVersionDigits : Nat :=
  9

def scanVersionNumber (s : List Placed) : Option (Nat × List Placed) :=
  let digits := s.takeWhile fun p => p.char.isDigit
  if digits.isEmpty ∨ maxVersionDigits < digits.length then none
  else some (digits.foldl (fun n p => 10 * n + (p.char.toNat - 48)) 0, s.drop digits.length)

theorem length_of_scanVersionNumber {s rest : List Placed} {n : Nat}
    (h : scanVersionNumber s = some (n, rest)) : rest.length ≤ s.length := by
  unfold scanVersionNumber at h
  grind

/-- A handle, and what follows it: one exclamation mark, or a name between two. -/
def scanHandle : List Placed → Option (String × List Placed)
  | ⟨'!', _, _, _⟩ :: s =>
      match takeName s with
      | (name, ⟨'!', _, _, _⟩ :: rest) => some ("!" ++ name ++ "!", rest)
      | ("", rest) => some ("!", rest)
      | _ => none
  | _ => none

theorem length_of_scanHandle {s rest : List Placed} {handle : String}
    (h : scanHandle s = some (handle, rest)) : rest.length ≤ s.length := by
  unfold scanHandle at h
  grind [length_takeName_le]

/-- The version that a directive declares, and what follows it. -/
def scanVersion (s : List Placed) : Option (Directive × List Placed) := do
  match ← scanVersionNumber s with
  | (major, ⟨'.', _, _, _⟩ :: rest) =>
      let (minor, rest) ← scanVersionNumber rest
      return (.version major minor, rest)
  | _ => none

theorem length_of_scanVersion {s rest : List Placed} {directive : Directive}
    (h : scanVersion s = some (directive, rest)) : rest.length ≤ s.length := by
  simp only [scanVersion, Option.bind_eq_bind, Option.bind_eq_some_iff] at h
  obtain ⟨⟨major, after⟩, hmajor, h⟩ := h
  have h1 := length_of_scanVersionNumber hmajor
  split at h
  · obtain ⟨⟨minor, last⟩, hminor, h⟩ := Option.bind_eq_some_iff.1 h
    have h2 := length_of_scanVersionNumber hminor
    cases h
    simp_all only [Prod.mk.injEq, List.length_cons]
    omega
  · cases h

/-- What a directive says that a handle stands for, and what follows it. -/
def scanHandleStart (s : List Placed) : Option (Directive × List Placed) := do
  let (handle, rest) ← scanHandle s
  if rest.head?.any fun p => isBlank p.char then
    let (start, rest) ← scanTagBytes true 0 (dropBlanks rest)
    if !start.isEmpty && atGap rest then some (.handle handle (upToZero start), rest) else none
  else none

theorem length_of_scanHandleStart {s rest : List Placed} {directive : Directive}
    (h : scanHandleStart s = some (directive, rest)) : rest.length ≤ s.length := by
  simp only [scanHandleStart, Option.bind_eq_bind, Option.bind_eq_some_iff] at h
  obtain ⟨⟨handle, after⟩, hhandle, h⟩ := h
  have h1 := length_of_scanHandle hhandle
  split at h
  · obtain ⟨⟨start, last⟩, hstart, h⟩ := Option.bind_eq_some_iff.1 h
    have h2 := length_of_scanTagBytes hstart
    have h3 := length_dropBlanks_le after
    split at h
    · cases h
      exact Nat.le_trans h2 (Nat.le_trans h3 h1)
    · cases h
  · cases h

/-- What a directive of a name declares, and what follows it. -/
def scanDeclaration (name : String) (s : List Placed) : Option (Directive × List Placed) :=
  if name = "YAML" then scanVersion (dropBlanks s)
  else if name = "TAG" then scanHandleStart (dropBlanks s)
  else none

theorem length_of_scanDeclaration {name : String} {s rest : List Placed} {directive : Directive}
    (h : scanDeclaration name s = some (directive, rest)) : rest.length ≤ s.length := by
  have hblanks := length_dropBlanks_le s
  unfold scanDeclaration at h
  split at h
  · exact Nat.le_trans (length_of_scanVersion h) hblanks
  · split at h
    · exact Nat.le_trans (length_of_scanHandleStart h) hblanks
    · cases h

/-- Whether nothing but a comment stands in what is left of a line. -/
def endsLine (s : List Placed) : Bool :=
  match dropBlanks s with
  | [] => true
  | p :: _ => isBreak p.char || p.char == '#'

/-- A directive after its percent sign, and the line after it. A comment may stand behind it, and
nothing else. -/
def scanDirective (s : List Placed) : Option (Directive × List Placed) := do
  let (directive, rest) ← scanDeclaration (takeName s).1 (takeName s).2
  if atGap (takeName s).2 && endsLine rest then some (directive, (dropLine rest).drop 1)
  else none

theorem length_of_scanDirective {s rest : List Placed} {directive : Directive}
    (h : scanDirective s = some (directive, rest)) : rest.length ≤ s.length := by
  simp only [scanDirective, Option.bind_eq_bind, Option.bind_eq_some_iff] at h
  obtain ⟨⟨found, after⟩, hfound, h⟩ := h
  have h1 := length_of_scanDeclaration hfound
  have h2 := length_takeName_le s
  have h3 := length_dropLine_le after
  split at h
  · cases h
    exact Nat.le_trans (List.drop_sublist _ _).length_le
      (Nat.le_trans h3 (Nat.le_trans h1 h2))
  · cases h

end DateReviver.Yaml
