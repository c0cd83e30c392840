import DateReviver.Journal

/-!
# Which notes are shown

The environment names the level of detail: a plain level, or directives for the sources of log
lines, of which those for this program count before those for all.
-/

namespace DateReviver.CommandLine

def logVariable : String :=
  "DATE_CODEGEN_LOG"

def logSource : String :=
  "openapi_date_codegen"

/-- A level by its name, in any case of letters. -/
def levelOfName? (name : String) : Option Level :=
  [Level.error, .warn, .info, .debug, .trace].find? fun level =>
    level.name.toList == name.toList.map Char.toUpper

/-- What a directive says: the sources it is for, if not all, and the level up to which their
notes are shown, if any. -/
structure Directive where
  source : Option String
  level : Option Level

/-- The level that a directive names; `off` shows nothing. -/
def directiveLevel? (name : String) : Option (Option Level) :=
  match levelOfName? name with
  | some level => some (some level)
  | none => if name.toList.map Char.toLower = "off".toList then some none else none

/-- Read a directive: a level, a source and its level, or a source of which all is shown. -/
def Directive.parse? (text : String) : Option Directive :=
  match text.splitOn "=" with
  | [name] =>
      if name.isEmpty then none
      else
        match directiveLevel? name with
        | some level => some ⟨none, level⟩
        | none => some ⟨some name, some .trace⟩
  | [source, name] => (directiveLevel? name).map fun level => ⟨some source, level⟩
  | _ => none

/-- The level up to which this program's notes are shown, by the value of the variable. -/
def threshold? : Option String → Option Level
  | none => some .info
  | some value =>
      let directives := (value.splitOn ",").filterMap Directive.parse?
      let own := directives.filter fun d => d.source == some logSource
      let general := directives.filter fun d => d.source.isNone
      match own.getLast?, general.getLast? with
      | some d, _ => d.level
      | none, some d => d.level
      | none, none => if directives.isEmpty then some .error else none

def isShown (threshold : Option Level) (note : Note) : Bool :=
  match threshold with
  | none => false
  | some level => note.level.rank ≤ level.rank

end DateReviver.CommandLine
