import DateReviver.Emptiness
import DateReviver.TypeScript.Identifier

/-!
# From plans to statements

The statements that carry out a plan on a value change it in place: a date-time string is replaced
by a `Date`, arrays and maps are walked by index or key so that assignments land in the container,
and for a named type its function is called. Whatever would do nothing is left out.
-/

namespace DateReviver

open DateReviver.TypeScript DateReviver.Text

/-- What the values of a response may lack. -/
structure GuardPolicy where
  /-- Every property is there: values are never `undefined`, only perhaps null. -/
  allPresent : Bool

/-- Where a value stands: under how many loops, and whether inside of a container. -/
structure Scope where
  loops : Nat
  nested : Bool

namespace Scope

/-- The place of the value that a function is given. -/
def root : Scope :=
  ⟨0, false⟩

/-- The place of an item or entry of the value. -/
def enterLoop (scope : Scope) : Scope :=
  ⟨scope.loops + 1, true⟩

def enterProperty (scope : Scope) : Scope :=
  ⟨scope.loops, true⟩

end Scope

def loopVariable (base : String) (loops : Nat) : String :=
  if loops = 0 then base else base ++ toString loops

def isDefined (value : Expr) : Expr :=
  .differs value (.ident "undefined")

def isNotNull (value : Expr) : Expr :=
  .differs value .null

/-- The test under which a value is there, if one is needed. -/
def GuardPolicy.test? (policy : GuardPolicy) (nullable : Bool) (value : Expr) : Option Expr :=
  match policy.allPresent, nullable with
  | true, true => some (isNotNull value)
  | true, false => none
  | false, true => some (.both (isDefined value) (isNotNull value))
  | false, false => some (isDefined value)

def GuardPolicy.guarded (policy : GuardPolicy) (nullable : Bool) (value : Expr)
    (body : List Stmt) : List Stmt :=
  match policy.test? nullable value with
  | some test => [.guarded test body]
  | none => body

def convertDate (value : Expr) : Stmt :=
  .expr (.assign value (.new (.ident "Date") [value]))

def dateStatements (policy : GuardPolicy) (nullable : Bool) (value : Expr) : List Stmt :=
  policy.guarded nullable value [convertDate value]

/-- The name of the function for a type. The name is capitalised first, so that it is no reserved
word when the identifier is made of it. -/
def functionName (typeName : String) : String :=
  "transform" ++ capitalize (identifier (capitalize typeName)) ++ "Response"

/-- The name of the parameter of the function for a type. -/
def parameterName (typeName : String) : String :=
  identifier (uncapitalize typeName)

/-- The call of the function for a type. The function expects a value, so whether there is one is
tested under every policy. -/
def callStatement (typeName : String) (nullable : Bool) (value : Expr) : Stmt :=
  .guarded
    (if nullable then .both (isDefined value) (isNotNull value) else isDefined value)
    [.expr (.call (.ident (functionName typeName)) [value])]

mutual

/-- The statements that carry out a plan on a value. -/
def emitPlan (policy : GuardPolicy) (scope : Scope) (plan : Plan) (value : Expr) :
    Generation (List Stmt) :=
  match plan with
  | .primitive => pure []
  | .date nullable => pure (dateStatements policy nullable value)
  | .delegate typeName nullable => do
      -- A string cannot be replaced from inside of a function, so it is converted in place.
      match (← get).dateAlias? typeName with
      | some inner => pure (dateStatements policy (nullable || inner) value)
      | none =>
          if ← Generation.isTypeEmpty typeName then pure []
          else pure [callStatement typeName nullable value]
  | .array item nullable => do
      let index := loopVariable "i" scope.loops
      let body ← emitPlan policy scope.enterLoop item (.index value (.ident index))
      if body.isEmpty then pure []
      else pure (policy.guarded nullable value [.forIndex index value body])
  | .map values nullable => do
      let key := loopVariable "key" scope.loops
      let body ← emitPlan policy scope.enterLoop values (.index value (.ident key))
      if body.isEmpty then pure []
      else
        let keys := .call (.member (.ident "Object") "keys") [value]
        pure (policy.guarded nullable value [.forOf key keys body])
  | .object properties nullable => do
      let body ← emitProperties policy scope.enterProperty properties value
      if body.isEmpty || !scope.nested then pure body
      else pure (policy.guarded nullable value body)

/-- The statements that carry out the plans of properties on an object. -/
def emitProperties (policy : GuardPolicy) (scope : Scope) (properties : List (String × Plan))
    (object : Expr) : Generation (List Stmt) :=
  match properties with
  | [] => pure []
  | (name, plan) :: rest => do
      let own ← emitPlan policy scope plan (object.property name)
      let others ← emitProperties policy scope rest object
      pure (own ++ others)

end

/-- The statements that carry out a plan on the value that a function is given. -/
def emit (policy : GuardPolicy) (plan : Plan) (value : Expr) : Generation (List Stmt) :=
  emitPlan policy .root plan value

/-- The statement that converts a value of a type, if the type is registered and needs one. -/
def callSite (policy : GuardPolicy) (typeName : String) (value : Expr) :
    Generation (Option Stmt) := do
  if (← get).methods.contains typeName then
    match ← emit policy (.delegate typeName false) value with
    | [statement] => pure (some statement)
    | _ => pure none
  else pure none

/-- The function for a type: none for an empty type, nor for another name of date-time strings. -/
def typeFunction (policy : GuardPolicy) (typeName : String) : Generation (Option Function) := do
  if ← Generation.isTypeEmpty typeName then return none
  match (← get).plan? typeName with
  | none => return none
  | some plan =>
      if ((← get).dateAlias? typeName).isSome then
        Generation.note (.aliasInlined typeName)
        return none
      let name := parameterName typeName
      let body ← emit policy plan (.ident name)
      if body.isEmpty then return none
      return some ⟨functionName typeName, [⟨name, some (.named typeName)⟩], body, false⟩

def typeFunctions (policy : GuardPolicy) : List String → Generation (List Function)
  | [] => pure []
  | typeName :: rest => do
      let own ← typeFunction policy typeName
      let others ← typeFunctions policy rest
      pure (own.toList ++ others)

/-- The functions for all registered types, in order of first reference. -/
def allTypeFunctions (policy : GuardPolicy) : Generation (List Function) := do
  typeFunctions policy (← get).typeNames

end DateReviver
