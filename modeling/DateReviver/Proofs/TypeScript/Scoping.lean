import DateReviver.Proofs.TypeScript.Occurrence

/-!
# What names mean in a function

A name in the body of a function means the variable of the innermost loop of that name, or else the
parameter, or else a function of the module, or else what it means in the language. A body is clear if
every name in it means what it stands there for: an access path begins at the parameter, the key of a
loop is only used on what that loop walks, and nothing hides a function that is called or a name of
the language. A loop is in its own scope: what it walks is written where its variable is bound.
-/

namespace DateReviver.TypeScript

/-- What the names mean at a place in a function. -/
structure Scoping where
  /-- The functions of the module. -/
  functions : List String
  param : String
  /-- The loops around the place, the innermost first, each with what it walks. -/
  loops : List (String × Expr)

namespace Scoping

/-- The place inside of one more loop. -/
def enter (s : Scoping) (name : String) (walked : Expr) : Scoping :=
  { s with loops := (name, walked) :: s.loops }

/-- A name that is neither the parameter nor the variable of a loop. -/
def Outer (s : Scoping) (name : String) : Prop :=
  s.loops.lookup name = none ∧ name ≠ s.param

/-- A name that means what it means in the language. -/
def Global (s : Scoping) (name : String) : Prop :=
  s.Outer name ∧ name ∉ s.functions

/-- A name that means a function of the module. -/
def Callable (s : Scoping) (name : String) : Prop :=
  s.Outer name ∧ name ∈ s.functions

/-- An access path on the parameter. -/
inductive Path (s : Scoping) : Expr → Prop
  | param (h : s.loops.lookup s.param = none) : Path s (.ident s.param)
  | member {object : Expr} {name : String} (h : Path s object) : Path s (.member object name)
  | text {object : Expr} {key : String} (h : Path s object) : Path s (.index object (.text key))
  | element {object : Expr} {name : String} (h : Path s object)
      (hloop : s.loops.lookup name = some object) : Path s (.index object (.ident name))

/-- A test whether there is a value. -/
inductive Test (s : Scoping) : Expr → Prop
  | isDefined {value : Expr} (hvalue : s.Path value) (hundefined : s.Global "undefined") :
      Test s (.differs value (.ident "undefined"))
  | isNotNull {value : Expr} (hvalue : s.Path value) : Test s (.differs value .null)
  | both {left right : Expr} (hleft : Test s left) (hright : Test s right) :
      Test s (.both left right)

/-- A statement in which every name means what it stands there for. -/
inductive Clear : Scoping → Stmt → Prop
  | date {s : Scoping} {value : Expr} (hvalue : s.Path value) (hdate : s.Global "Date") :
      Clear s (.expr (.assign value (.new (.ident "Date") [value])))
  | call {s : Scoping} {name : String} {value : Expr} (hname : s.Callable name)
      (hvalue : s.Path value) : Clear s (.expr (.call (.ident name) [value]))
  | guarded {s : Scoping} {test : Expr} {body : List Stmt} (htest : s.Test test)
      (hbody : ∀ statement ∈ body, Clear s statement) : Clear s (.guarded test body)
  | forIndex {s : Scoping} {name : String} {array : Expr} {body : List Stmt}
      (harray : (s.enter name array).Path array)
      (hbody : ∀ statement ∈ body, Clear (s.enter name array) statement) :
      Clear s (.forIndex name array body)
  | forOf {s : Scoping} {name : String} {value : Expr} {body : List Stmt}
      (hvalue : (s.enter name value).Path value) (hobject : (s.enter name value).Global "Object")
      (hbody : ∀ statement ∈ body, Clear (s.enter name value) statement) :
      Clear s (.forOf name (.call (.member (.ident "Object") "keys") [value]) body)
  | ret {s : Scoping} {value : Expr} (hvalue : s.Path value) : Clear s (.ret value)

end Scoping

/-- Every name in a function of one parameter means what it stands there for. -/
def Function.Clear (functions : List String) (f : Function) : Prop :=
  ∃ param, f.params = [param] ∧
    ∀ statement ∈ f.body, Scoping.Clear ⟨functions, param.name, []⟩ statement

/-! ## Capture -/

mutual

/-- No loop has the variable of a loop around it. -/
def Stmt.LoopsApart (outer : List String) : Stmt → Prop
  | .expr _ | .ret _ => True
  | .guarded _ body => Stmt.LoopsApartAll outer body
  | .forIndex name _ body | .forOf name _ body =>
      name ∉ outer ∧ Stmt.LoopsApartAll (name :: outer) body

def Stmt.LoopsApartAll (outer : List String) : List Stmt → Prop
  | [] => True
  | statement :: rest => statement.LoopsApart outer ∧ Stmt.LoopsApartAll outer rest

end

/-- The names of the language that function bodies use. -/
def globalNames : List String :=
  ["undefined", "Date", "Object"]

/-- No loop hides another, and no parameter is hidden by a loop or hides a name of the language or a
function that is called. -/
structure Function.CaptureFree (f : Function) : Prop where
  nested : Stmt.LoopsApartAll [] f.body
  loops : ∀ param ∈ f.params, param.name ∉ Stmt.loopsAll f.body
  globals : ∀ param ∈ f.params, param.name ∉ globalNames
  calls : ∀ param ∈ f.params, param.name ∉ Stmt.callsAll f.body

theorem Stmt.loopsApartAll_append {outer : List String} {first second : List Stmt} :
    Stmt.LoopsApartAll outer (first ++ second) ↔
      Stmt.LoopsApartAll outer first ∧ Stmt.LoopsApartAll outer second := by
  induction first with
  | nil => simp [Stmt.LoopsApartAll]
  | cons statement rest ih =>
      rw [List.cons_append, Stmt.LoopsApartAll, Stmt.LoopsApartAll, ih, and_assoc]

end DateReviver.TypeScript
