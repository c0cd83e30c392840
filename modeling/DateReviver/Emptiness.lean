import DateReviver.Registry

/-!
# Which types hold no dates

A type is empty if no date can be reached from its plan, so that nothing has to happen to its
values. The search goes depth first through the delegations. A type that is met again while it is
open is taken to be empty, for a circle of types adds no date of its own. A type found empty on
the strength of an open type is kept aside as leaning on it: it is settled as empty when that
type is, and forgotten when that type turns out to hold dates or cannot be decided.

The open types are an argument of the search, the latest first, so a type's depth is the number
of types under it, and no open type outlives the call that opened it.
-/

namespace DateReviver

/-- What a search knows about the plan that it has walked. -/
inductive Verdict where
  | holdsDate
  /-- No date was reached, assuming that open types hold none: `pending` is the depth of the
  shallowest of them. -/
  | empty (pending : Option Nat)
deriving DecidableEq

def Verdict.isEmpty : Verdict → Bool
  | .holdsDate => false
  | .empty _ => true

structure Search where
  /-- The types that are decided, and whether they are empty. -/
  settled : OrderedMap Bool
  /-- The types found empty while a circle through them is open, each with the depth of the
  shallowest open type that it leans on. -/
  leaning : List (String × Nat)
  /-- The types whose plans were walked, the latest first. -/
  walked : List String
  /-- What happened, the latest first. -/
  journal : List Note

namespace Search

def depth? (stack : List String) (typeName : String) : Option Nat :=
  match stack with
  | [] => none
  | latest :: rest => if latest = typeName then some rest.length else depth? rest typeName

def enter (s : Search) (typeName : String) : Search :=
  { s with walked := typeName :: s.walked }

/-- Let go of the types that lean on the type at a depth or above it. They are settled as empty if
that type is empty. -/
def release (s : Search) (depth : Nat) (empty : Bool) : Search :=
  let (kept, released) := s.leaning.partition fun entry => entry.2 < depth
  { s with
    leaning := kept
    settled :=
      if empty then s.settled.insertAll (released.map fun entry => (entry.1, true))
      else s.settled }

/-- Settle the type at a depth, and with it the types that lean on it. -/
def settle (s : Search) (depth : Nat) (typeName : String) (empty : Bool) : Search :=
  let s := s.release depth empty
  { s with
    settled := s.settled.insert typeName empty
    journal := .emptinessDecided typeName empty :: s.journal }

/-- Keep the type at a depth aside: it leans on a type further down, and so does now whatever
leaned on it. -/
def defer (s : Search) (depth : Nat) (typeName : String) (pending : Nat) : Search :=
  { s with
    leaning :=
      (typeName, pending)
        :: s.leaning.map fun entry => if depth ≤ entry.2 then (entry.1, pending) else entry
    journal := .leaningOnOpenCycle typeName pending :: s.journal }

/-- Draw the conclusion about the type at a depth from the walk of its plan. -/
def conclude (depth : Nat) (typeName : String) :
    Except GenerationError Verdict × Search → Except GenerationError Verdict × Search
  | (.error e, s) => (.error e, s.release depth false)
  | (.ok .holdsDate, s) => (.ok .holdsDate, s.settle depth typeName false)
  | (.ok (.empty none), s) => (.ok (.empty none), s.settle depth typeName true)
  | (.ok (.empty (some pending)), s) =>
      if pending < depth then (.ok (.empty (some pending)), s.defer depth typeName pending)
      else (.ok (.empty none), s.settle depth typeName true)

theorem contains_eq_false_of_depth? {stack : List String} {typeName : String}
    (h : depth? stack typeName = none) : stack.contains typeName = false := by
  induction stack with
  | nil => rfl
  | cons latest rest ih =>
      unfold depth? at h
      split at h
      · cases h
      · rename_i hne
        have hrest := ih h
        simp only [List.contains_eq_mem, decide_eq_false_iff_not, List.mem_cons, not_or] at hrest ⊢
        exact ⟨fun heq => hne heq.symm, hrest⟩

end Search

theorem Registry.mem_keys_of_plan? {r : Registry} {typeName : String} {plan : Plan}
    (h : r.plan? typeName = some plan) : typeName ∈ r.methods.keys := by
  unfold Registry.plan? at h
  exact OrderedMap.mem_keys_of_get? (Option.join_eq_some_iff.1 h)

mutual

/-- Whether a type is empty, with the types that are open. -/
def typeVerdict (r : Registry) (stack : List String) (typeName : String) (s : Search) :
    Except GenerationError Verdict × Search :=
  match _hplan : r.plan? typeName with
  | none => (.error (.prematureEmptinessCheck typeName), s)
  | some plan =>
      match s.settled.get? typeName with
      | some true => (.ok (.empty none), s)
      | some false => (.ok .holdsDate, s)
      | none =>
          match _hopen : Search.depth? stack typeName with
          | some depth => (.ok (.empty (some depth)), s)
          | none =>
              match s.leaning.lookup typeName with
              | some pending => (.ok (.empty (some pending)), s)
              | none =>
                  Search.conclude stack.length typeName
                    (planVerdict r (typeName :: stack) plan (s.enter typeName))
termination_by (r.methods.countOutside stack, 0)
decreasing_by
  exact Prod.Lex.left _ _ (OrderedMap.countOutside_cons_lt (Registry.mem_keys_of_plan? _hplan)
    (Search.contains_eq_false_of_depth? _hopen))

/-- Whether a plan is empty, with the types that are open. -/
def planVerdict (r : Registry) (stack : List String) (plan : Plan) (s : Search) :
    Except GenerationError Verdict × Search :=
  match plan with
  | .primitive => (.ok (.empty none), s)
  | .date _ => (.ok .holdsDate, s)
  | .delegate typeName _ => typeVerdict r stack typeName s
  | .array item _ => planVerdict r stack item s
  | .map values _ => planVerdict r stack values s
  | .object properties _ => propertiesVerdict r stack properties s
termination_by (r.methods.countOutside stack, sizeOf plan)

/-- Whether the plans of properties are empty. The first that holds a date decides. -/
def propertiesVerdict (r : Registry) (stack : List String) (properties : List (String × Plan))
    (s : Search) : Except GenerationError Verdict × Search :=
  match properties with
  | [] => (.ok (.empty none), s)
  | (_, plan) :: rest =>
      match planVerdict r stack plan s with
      | (.ok (.empty pending), s) =>
          match propertiesVerdict r stack rest s with
          | (.ok (.empty others), s) => (.ok (.empty (Option.merge min pending others)), s)
          | answer => answer
      | answer => answer
termination_by (r.methods.countOutside stack, sizeOf properties)

end

namespace Generation

/-- Answer a question of emptiness and keep what the search has settled. -/
def search (question : Registry → Search → Except GenerationError Verdict × Search) :
    Generation Bool := do
  let r ← get
  let (answer, s) := question r ⟨r.verdicts, [], [], r.journal⟩
  set { r with verdicts := s.settled, journal := s.journal }
  return (← MonadExcept.ofExcept answer).isEmpty

/-- Whether nothing has to happen to the values of a type. -/
def isTypeEmpty (typeName : String) : Generation Bool :=
  search fun r => typeVerdict r [] typeName

def isPlanEmpty (plan : Plan) : Generation Bool :=
  search fun r => planVerdict r [] plan

end Generation

end DateReviver
