import DateReviver.Config

/-!
# Arguments of the command line

A call asks for help, for the version, or for a generation with options. Options that take a value
have it in the next argument or after an equality sign, are given at most once except for
`--type`, and name no empty path. There are no other arguments.
-/

namespace DateReviver.CommandLine

structure Flags where
  schemaFile : Option String := none
  outputFile : Option String := none
  configFile : Option String := none
  types : List String := []
  allTypes : Bool := false
  noOperations : Bool := false
  requireAllProperties : Bool := false

inductive Command where
  | help
  | version
  | generate (flags : Flags)

inductive ValueOption where
  | schema
  | outputFile
  | config
  | type

namespace Flags

/-- A path that is given once, and is not empty. -/
def givePath (before : Option String) (path : String) : Option (Option String) :=
  if before.isSome || path.isEmpty then none else some (some path)

def give (f : Flags) (option : ValueOption) (value : String) : Option Flags :=
  match option with
  | .schema => (givePath f.schemaFile value).map fun path => { f with schemaFile := path }
  | .outputFile => (givePath f.outputFile value).map fun path => { f with outputFile := path }
  | .config => (givePath f.configFile value).map fun path => { f with configFile := path }
  | .type => some { f with types := f.types ++ [value] }

def raise? (f : Flags) : String → Option Flags
  | "--all-types" => if f.allTypes then none else some { f with allTypes := true }
  | "--no-operations" => if f.noOperations then none else some { f with noOperations := true }
  | "--require-all-properties" =>
      if f.requireAllProperties then none else some { f with requireAllProperties := true }
  | _ => none

end Flags

def valueOption? : String → Option ValueOption
  | "--schema" => some .schema
  | "--output-file" => some .outputFile
  | "--config" => some .config
  | "--type" => some .type
  | "-o" => some .outputFile
  | _ => none

/-- An argument that gives an option together with its value. -/
def attachedValue? (argument : String) : Option (ValueOption × String) :=
  match argument.toList with
  | '-' :: '-' :: _ =>
      let name := argument.toList.takeWhile (· != '=')
      match argument.toList.dropWhile (· != '=') with
      | [] => none
      | _ :: value =>
          (valueOption? (String.ofList name)).map fun option => (option, String.ofList value)
  | '-' :: 'o' :: '=' :: value => some (.outputFile, String.ofList value)
  | '-' :: 'o' :: c :: value => some (.outputFile, String.ofList (c :: value))
  | _ => none

/-- Whether an argument can be the value of the option before it. -/
def isValue (argument : String) : Bool :=
  argument == "-" || argument.toList.head? != some '-'

def startsWithFlag (flag : Char) (argument : String) : Bool :=
  match argument.toList with
  | '-' :: c :: _ => c == flag
  | _ => false

def asksForHelp (argument : String) : Bool :=
  argument == "--help" || startsWithFlag 'h' argument

/-- Read the arguments of a generation, after those that have been read. -/
def parseGenerate (f : Flags) : List String → Option Command
  | [] => some (.generate f)
  | ["--"] => some (.generate f)
  | argument :: rest =>
      if asksForHelp argument then some .help
      else
        match attachedValue? argument with
        | some (option, value) => (f.give option value).bind (parseGenerate · rest)
        | none =>
            match f.raise? argument with
            | some f => parseGenerate f rest
            | none =>
                match valueOption? argument, rest with
                | some option, value :: rest =>
                    if isValue value then (f.give option value).bind (parseGenerate · rest)
                    else none
                | _, _ => none

def parse : List String → Option Command
  | [] => some .help
  | ["--"] => some .help
  | ["help"] => some .help
  | ["help", "help"] => some .help
  | ["help", "generate"] => some .help
  | "generate" :: rest => parseGenerate {} rest
  | argument :: _ =>
      if asksForHelp argument then some .help
      else if argument = "--version" ∨ startsWithFlag 'V' argument then some .version
      else none

/-- The configuration under the options: what is given replaces what is configured, and flags add
to it. -/
def Flags.override (f : Flags) (c : Config) : Config where
  schemaFile := f.schemaFile.or c.schemaFile
  outputFile := f.outputFile.or c.outputFile
  types := if f.types.isEmpty then c.types else f.types
  allTypes := c.allTypes || f.allTypes
  includeOperations := c.includeOperations && !f.noOperations
  requireAllProperties := c.requireAllProperties || f.requireAllProperties

end DateReviver.CommandLine
