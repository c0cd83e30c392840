import DateReviver.Proofs.TypeScript.Value

/-!
# Running a module

What the statements of a module do to the value that a function is given. An expression is a place
in that value: it is read from the parameter down, and a new value there is written back up to the
parameter. A function changes its value in place, so that its caller sees the change; an assignment
to the parameter itself is seen by no caller. Loop variables hide the parameter, and both hide what
is declared outside of the function.

A run is given fuel, of which every step uses up one unit, and stops with a fault of its own when it
has none left. With more fuel a run that had enough does the same.
-/

namespace DateReviver.TypeScript

/-- The names that a statement sees inside of its function: the parameter, and the variables of the
loops around it, the innermost first. A variable without a key has no value yet. -/
structure Env where
  param : String
  loops : List (String × Option Key)

namespace Env

/-- The names seen inside of further loops. -/
def under (env : Env) (more : List (String × Option Key)) : Env :=
  ⟨env.param, more ++ env.loops⟩

/-- Whether a name is that of the parameter. -/
def isParam (env : Env) (name : String) : Bool :=
  (env.loops.lookup name).isNone && name == env.param

/-- Whether a name is declared outside of the function. -/
def isOuter (env : Env) (name : String) : Bool :=
  (env.loops.lookup name).isNone && name != env.param

/-- The key that a loop variable holds. -/
def key? (env : Env) (name : String) : Option Key :=
  (env.loops.lookup name).join

end Env

/-! ## Expressions -/

namespace Expr

/-- The key that an expression between brackets stands for. -/
def key (env : Env) : Expr → Except Fault Key
  | .text name => .ok (.name name)
  | .ident name =>
      match env.key? name with
      | some key => .ok key
      | none => .error .unsupported
  | _ => .error .unsupported

/-- The value at a place, seen from the value of the parameter. -/
def read (env : Env) (root : Value) : Expr → Except Fault Value
  | .ident name => if env.isParam name then .ok root else .error .unsupported
  | .member object property => do (← object.read env root).get (.name property)
  | .index object position => do (← object.read env root).get (← position.key env)
  | _ => .error .unsupported

/-- The value of the parameter after a value is put at a place. -/
def write (env : Env) (root : Value) : Expr → Value → Except Fault Value
  | .ident name, value => if env.isParam name then .ok value else .error .unsupported
  | .member object property, value => do
      object.write env root (← (← object.read env root).put (.name property) value)
  | .index object position, value => do
      object.write env root (← (← object.read env root).put (← position.key env) value)
  | _, _ => .error .unsupported

/-- Whether a test holds: a value is compared with `undefined` or with null. -/
def holds (m : Module) (env : Env) (root : Value) : Expr → Except Fault Bool
  | .differs value (.ident "undefined") =>
      if env.isOuter "undefined" && !(m.any fun f => f.name == "undefined") then do
        match ← value.read env root with
        | .undefined => .ok false
        | _ => .ok true
      else .error .unsupported
  | .differs value .null => do
      match ← value.read env root with
      | .null => .ok false
      | _ => .ok true
  | .both left right => do
      if ← left.holds m env root then right.holds m env root else .ok false
  | _ => .error .unsupported

theorem holds_undefined_eq {m : Module} {env : Env} {root : Value} {value : Expr} :
    (Expr.differs value (.ident "undefined")).holds m env root =
      if env.isOuter "undefined" && !(m.any fun f => f.name == "undefined") then do
        match ← value.read env root with
        | .undefined => .ok false
        | _ => .ok true
      else .error .unsupported :=
  rfl

theorem holds_null_eq {m : Module} {env : Env} {root : Value} {value : Expr} :
    (Expr.differs value .null).holds m env root = (do
      match ← value.read env root with
      | .null => .ok false
      | _ => .ok true) :=
  rfl

theorem holds_both_eq {m : Module} {env : Env} {root : Value} {left right : Expr} :
    (Expr.both left right).holds m env root = (do
      if ← left.holds m env root then right.holds m env root else .ok false) :=
  rfl

/-- The length of the array at a place. -/
def length (env : Env) (root : Value) (array : Expr) : Except Fault Nat := do
  (← array.read env root).length

/-- The keys that a loop walks over. -/
def keys (m : Module) (env : Env) (root : Value) : Expr → Except Fault (List String)
  | .call (.member (.ident "Object") "keys") [value] =>
      if env.isOuter "Object" && !(m.any fun f => f.name == "Object") then do
        (← value.read env root).keys
      else .error .unsupported
  | _ => .error .unsupported

end Expr

/-! ## Statements -/

/-- The parameter of a running function: the value that it was given, changed in place, and the
value that was assigned to the parameter itself since. -/
structure Frame where
  value : Value
  rebound : Option Value

namespace Frame

/-- The value that the parameter stands for. -/
def current (frame : Frame) : Value :=
  frame.rebound.getD frame.value

/-- The value that the parameter stands for is changed in place. -/
def change (frame : Frame) (value : Value) : Frame :=
  match frame.rebound with
  | none => ⟨value, none⟩
  | some _ => ⟨frame.value, some value⟩

end Frame

/-- How statements end: in a fault, or with the parameter as they leave it and, if they returned,
the value that they returned. -/
abbrev Outcome := Except Fault (Frame × Option Value)

/-- Go on where statements ended, unless they returned. -/
def Outcome.andThen : Outcome → (Frame → Outcome) → Outcome
  | .ok (frame, none), next => next frame
  | outcome, _ => outcome

mutual

/-- Run statements in their order. -/
def exec (m : Module) (fuel : Nat) (env : Env) (frame : Frame) (body : List Stmt) : Outcome :=
  match fuel, body with
  | 0, _ => .error .exhausted
  | _ + 1, [] => .ok (frame, none)
  | fuel + 1, s :: rest =>
      Outcome.andThen (execStmt m fuel env frame s) fun frame => exec m fuel env frame rest

/-- Run a statement. -/
def execStmt (m : Module) (fuel : Nat) (env : Env) (frame : Frame) (s : Stmt) : Outcome :=
  match fuel, s with
  | 0, _ => .error .exhausted
  | fuel + 1, .expr value => do .ok (← execExpr m fuel env frame value, none)
  | fuel + 1, .guarded test body => do
      if ← test.holds m env frame.current then exec m fuel env frame body else .ok (frame, none)
  | fuel + 1, .forIndex index array body => execFrom m fuel env frame index array body 0
  | fuel + 1, .forOf binding iterable body => do
      let keys ← iterable.keys m (env.under [(binding, none)]) frame.current
      execOver m fuel env frame binding body keys
  | _ + 1, .ret value => do .ok (frame, some (← value.read env frame.current))

/-- Run the body of a loop over the positions of an array, from a position on. The length is asked
for anew at every position. -/
def execFrom (m : Module) (fuel : Nat) (env : Env) (frame : Frame) (index : String)
    (array : Expr) (body : List Stmt) (position : Nat) : Outcome :=
  match fuel with
  | 0 => .error .exhausted
  | fuel + 1 => do
      let inside := env.under [(index, some (.index position))]
      let length ← array.length inside frame.current
      if position < length then
        Outcome.andThen (exec m fuel inside frame body) fun frame =>
          execFrom m fuel env frame index array body (position + 1)
      else .ok (frame, none)

/-- Run the body of a loop over keys. -/
def execOver (m : Module) (fuel : Nat) (env : Env) (frame : Frame) (binding : String)
    (body : List Stmt) (keys : List String) : Outcome :=
  match fuel, keys with
  | 0, _ => .error .exhausted
  | _ + 1, [] => .ok (frame, none)
  | fuel + 1, key :: rest =>
      Outcome.andThen (exec m fuel (env.under [(binding, some (.name key))]) frame body)
        fun frame => execOver m fuel env frame binding body rest

/-- Run an expression for what it does: an assignment of a date or the call of a function. -/
def execExpr (m : Module) (fuel : Nat) (env : Env) (frame : Frame) (e : Expr) :
    Except Fault Frame :=
  match fuel, e with
  | 0, _ => .error .exhausted
  | _ + 1, .assign target (.new (.ident "Date") [source]) =>
      if env.isOuter "Date" && !(m.any fun f => f.name == "Date") then do
        let value ← source.read env frame.current
        match target with
        | .ident name =>
            if env.isParam name then .ok { frame with rebound := some (.date value) }
            else .error .unsupported
        | target => do .ok (frame.change (← target.write env frame.current (.date value)))
      else .error .unsupported
  | fuel + 1, .call (.ident function) [argument] =>
      if env.isOuter function then do
        let value ← argument.read env frame.current
        let (value, _) ← call m fuel function value
        .ok (frame.change (← argument.write env frame.current value))
      else .error .unsupported
  | _ + 1, _ => .error .unsupported

/-- Call a function on a value: the value after the call, and what the function returns. -/
def call (m : Module) (fuel : Nat) (function : String) (value : Value) :
    Except Fault (Value × Option Value) :=
  match fuel with
  | 0 => .error .exhausted
  | fuel + 1 =>
      match m.find? fun f => f.name == function with
      | some ⟨_, [param], body, _⟩ => do
          let (frame, result) ← exec m fuel ⟨param.name, []⟩ ⟨value, none⟩ body
          .ok (frame.value, result)
      | _ => .error .unsupported

end

/-! ### One step of a run -/

section Equations

variable {m : Module} {fuel : Nat} {env : Env} {frame : Frame}

theorem exec_nil : exec m (fuel + 1) env frame [] = .ok (frame, none) :=
  rfl

theorem exec_cons {s : Stmt} {rest : List Stmt} : exec m (fuel + 1) env frame (s :: rest) =
    Outcome.andThen (execStmt m fuel env frame s) fun frame => exec m fuel env frame rest :=
  rfl

theorem execStmt_expr {value : Expr} : execStmt m (fuel + 1) env frame (.expr value) =
    (execExpr m fuel env frame value).map fun frame => (frame, none) :=
  rfl

theorem execStmt_guarded {test : Expr} {body : List Stmt} :
    execStmt m (fuel + 1) env frame (.guarded test body) = (do
      if ← test.holds m env frame.current then exec m fuel env frame body
      else .ok (frame, none)) :=
  rfl

theorem execStmt_forIndex {name : String} {array : Expr} {body : List Stmt} :
    execStmt m (fuel + 1) env frame (.forIndex name array body) =
      execFrom m fuel env frame name array body 0 :=
  rfl

theorem execStmt_forOf {name : String} {iterable : Expr} {body : List Stmt} :
    execStmt m (fuel + 1) env frame (.forOf name iterable body) = (do
      let keys ← iterable.keys m (env.under [(name, none)]) frame.current
      execOver m fuel env frame name body keys) :=
  rfl

theorem execStmt_ret {value : Expr} : execStmt m (fuel + 1) env frame (.ret value) =
    (value.read env frame.current).map fun value => (frame, some value) :=
  rfl

theorem execFrom_succ {name : String} {array : Expr} {body : List Stmt} {position : Nat} :
    execFrom m (fuel + 1) env frame name array body position = (do
      let length ← array.length (env.under [(name, some (.index position))]) frame.current
      if position < length then
        Outcome.andThen (exec m fuel (env.under [(name, some (.index position))]) frame body)
          fun frame => execFrom m fuel env frame name array body (position + 1)
      else .ok (frame, none)) :=
  rfl

theorem execOver_nil {name : String} {body : List Stmt} :
    execOver m (fuel + 1) env frame name body [] = .ok (frame, none) :=
  rfl

theorem execOver_cons {name key : String} {body : List Stmt} {rest : List String} :
    execOver m (fuel + 1) env frame name body (key :: rest) =
      Outcome.andThen (exec m fuel (env.under [(name, some (.name key))]) frame body)
        fun frame => execOver m fuel env frame name body rest :=
  rfl

theorem execExpr_assign {target source : Expr} :
    execExpr m (fuel + 1) env frame (.assign target (.new (.ident "Date") [source])) =
      if env.isOuter "Date" && !(m.any fun f => f.name == "Date") then do
        let value ← source.read env frame.current
        match target with
        | .ident name =>
            if env.isParam name then .ok { frame with rebound := some (.date value) }
            else .error .unsupported
        | target => do .ok (frame.change (← target.write env frame.current (.date value)))
      else .error .unsupported :=
  rfl

theorem execExpr_call {function : String} {argument : Expr} :
    execExpr m (fuel + 1) env frame (.call (.ident function) [argument]) =
      if env.isOuter function then do
        let value ← argument.read env frame.current
        let (value, _) ← call m fuel function value
        .ok (frame.change (← argument.write env frame.current value))
      else .error .unsupported :=
  rfl

theorem call_succ {function : String} {value : Value} : call m (fuel + 1) function value =
    match m.find? fun f => f.name == function with
    | some ⟨_, [param], body, _⟩ => do
        let (frame, result) ← exec m fuel ⟨param.name, []⟩ ⟨value, none⟩ body
        .ok (frame.value, result)
    | _ => .error .unsupported :=
  rfl

end Equations

end DateReviver.TypeScript
