import DateReviver.Journal
import DateReviver.Planning

/-!
# The registry of named types

The types of one run in order of first reference, each with the plan for its values. A type whose
planning failed stays registered without a plan. Beside the plans the registry keeps what has been
decided about them, and the journal of the run.

A step of a run changes the registry also when it fails: `Generation` keeps the registry beside
the error.
-/

namespace DateReviver

open DateReviver.OpenApi

structure Registry where
  /-- The plans of the types, in order of first reference. -/
  methods : OrderedMap (Option Plan)
  /-- For each type that is decided, whether it is empty: whether its values hold no date. -/
  verdicts : OrderedMap Bool
  /-- What happened, the latest first. -/
  journal : List Note

/-- A step of a run: it has a result or an error, and changes the registry in both cases. -/
abbrev Generation (α : Type) := ExceptT GenerationError (StateM Registry) α

namespace Registry

def empty : Registry :=
  ⟨.empty, .empty, []⟩

/-- The names of the types, in order of first reference. -/
def typeNames (r : Registry) : List String :=
  r.methods.keys

/-- The plan of a type, once it is there. -/
def plan? (r : Registry) (typeName : String) : Option Plan :=
  (r.methods.get? typeName).join

def record (r : Registry) (note : Note) : Registry :=
  { r with journal := note :: r.journal }

def register (r : Registry) (found : List (String × Option Plan)) : Registry :=
  { r with
    methods := r.methods.insertAll found
    journal := found.foldl (fun journal entry => .planningType entry.1 :: journal) r.journal }

/-- Follow delegations from a type for at most so many steps. -/
def aliasWithin (r : Registry) : (steps : Nat) → (nullable : Bool) → String → Option Bool
  | 0, _, _ => none
  | steps + 1, nullable, typeName =>
      match r.plan? typeName with
      | some (.date inner) => some (nullable || inner)
      | some (.delegate target inner) => r.aliasWithin steps (nullable || inner) target
      | _ => none

/-- For a type that is another name of date-time strings, directly or through other types: whether
null may stand in their place. A chain that is longer than the registry has come back to one of
its types. -/
def dateAlias? (r : Registry) (typeName : String) : Option Bool :=
  r.aliasWithin r.methods.size false typeName

end Registry

namespace Generation

def note (n : Note) : Generation Unit :=
  modify (·.record n)

/-- Take over what a walk found, and its result. -/
def absorb {α : Type} (walk : List String → Planned α) : Generation α := do
  let planned := walk (← get).typeNames
  modify (·.register planned.found)
  MonadExcept.ofExcept planned.result

def plan (doc : Document) (schema : Schema) : Generation Plan :=
  absorb (planSchema doc · schema)

/-- Make sure that a type is registered, by planning its schema the first time. -/
def register (doc : Document) (typeName : String) (schema : Schema) : Generation Unit :=
  absorb fun known => planType doc known typeName schema

end Generation

end DateReviver
