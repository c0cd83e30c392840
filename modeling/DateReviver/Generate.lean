import DateReviver.Operations
import DateReviver.TypeScript.Printer

/-!
# Generating the functions of a document

One function for each type that holds dates, one for each operation whose response does, and a
call for each requested type that needs one.
-/

namespace DateReviver

open DateReviver.OpenApi DateReviver.TypeScript

structure Options where
  /-- Properties are never missing, only perhaps null. -/
  requireAllProperties : Bool := false
  types : List String := []
  allTypes : Bool := false
  includeOperations : Bool := true

def Options.policy (o : Options) : GuardPolicy :=
  ⟨o.requireAllProperties⟩

def Options.requested (o : Options) (doc : Document) : List String :=
  if o.allTypes then doc.typeNames else o.types

/-- The statement that converts a response of a requested type. -/
structure CallSite where
  typeName : String
  statement : Stmt

structure Output where
  /-- The functions of types that hold dates, in order of first reference. -/
  typeFunctions : List Function
  operationFunctions : List Function
  callSites : List CallSite

namespace Output

def isEmpty (o : Output) : Bool :=
  o.typeFunctions.isEmpty && o.operationFunctions.isEmpty

def toModule (o : Output) : Module :=
  o.typeFunctions ++ o.operationFunctions

def render (o : Output) : String :=
  o.toModule.render

/-- The text of the call for a type, if it needs one. -/
def callSite? (o : Output) (typeName : String) : Option String :=
  (o.callSites.find? fun site => site.typeName == typeName).map fun site =>
    site.statement.render 0

end Output

def registerTypes (doc : Document) : List String → Generation Unit
  | [] => pure ()
  | typeName :: rest => do
      match doc.schema? typeName with
      | none => throw (.unknownType typeName)
      | some schema =>
          Generation.register doc typeName schema
          registerTypes doc rest

def callSites (policy : GuardPolicy) : List String → Generation (List CallSite)
  | [] => pure []
  | typeName :: rest => do
      let own ← callSite policy typeName (.ident "response")
      let others ← callSites policy rest
      pure ((own.map (CallSite.mk typeName)).toList ++ others)

def generation (options : Options) (doc : Document) : Generation Output := do
  let requested := options.requested doc
  registerTypes doc requested
  let operations ← if options.includeOperations then planOperations doc else pure []
  Generation.note (.planningComplete (← get).methods.size operations.length)
  let functions ← allTypeFunctions options.policy
  let ofOperations ← operationFunctions options.policy operations
  let calls ← callSites options.policy requested
  Generation.note (.functionsGenerated functions.length ofOperations.length)
  pure ⟨functions, ofOperations, calls⟩

/-- Generate what the options ask for, starting from an empty registry. -/
def generate (options : Options) (doc : Document) : Except GenerationError Output :=
  ((generation options doc).run .empty).1

end DateReviver
