import DateReviver.TypeScript.Identifier

/-!
# What occurs in statements

The functions that statements call by name, and the variables of their loops, at every depth.
-/

namespace DateReviver.TypeScript

/-- The name that an expression is, if it is one. -/
def Expr.ident? : Expr → Option String
  | .ident name => some name
  | _ => none

mutual

/-- The functions that an expression calls by their names. -/
def Expr.calls : Expr → List String
  | .ident _ | .text _ | .null => []
  | .call callee args => callee.ident?.toList ++ callee.calls ++ Expr.callsAll args
  | .new callee args => callee.calls ++ Expr.callsAll args
  | .member object _ => object.calls
  | .index object key => object.calls ++ key.calls
  | .differs left right | .both left right | .assign left right => left.calls ++ right.calls

def Expr.callsAll : List Expr → List String
  | [] => []
  | value :: rest => value.calls ++ Expr.callsAll rest

end

mutual

/-- The functions that a statement calls by their names, at any depth. -/
def Stmt.calls : Stmt → List String
  | .expr value | .ret value => value.calls
  | .guarded test body => test.calls ++ Stmt.callsAll body
  | .forIndex _ array body => array.calls ++ Stmt.callsAll body
  | .forOf _ iterable body => iterable.calls ++ Stmt.callsAll body

def Stmt.callsAll : List Stmt → List String
  | [] => []
  | statement :: rest => statement.calls ++ Stmt.callsAll rest

end

mutual

/-- The variables of the loops in a statement, at any depth. -/
def Stmt.loops : Stmt → List String
  | .expr _ | .ret _ => []
  | .guarded _ body => Stmt.loopsAll body
  | .forIndex name _ body | .forOf name _ body => name :: Stmt.loopsAll body

def Stmt.loopsAll : List Stmt → List String
  | [] => []
  | statement :: rest => statement.loops ++ Stmt.loopsAll rest

end

theorem Stmt.callsAll_append (first second : List Stmt) :
    Stmt.callsAll (first ++ second) = Stmt.callsAll first ++ Stmt.callsAll second := by
  induction first with
  | nil => rfl
  | cons statement rest ih =>
      rw [List.cons_append, Stmt.callsAll, Stmt.callsAll, ih, List.append_assoc]

theorem Stmt.loopsAll_append (first second : List Stmt) :
    Stmt.loopsAll (first ++ second) = Stmt.loopsAll first ++ Stmt.loopsAll second := by
  induction first with
  | nil => rfl
  | cons statement rest ih =>
      rw [List.cons_append, Stmt.loopsAll, Stmt.loopsAll, ih, List.append_assoc]

theorem Stmt.callsAll_singleton (statement : Stmt) :
    Stmt.callsAll [statement] = statement.calls := by
  rw [Stmt.callsAll, Stmt.callsAll, List.append_nil]

theorem Stmt.loopsAll_singleton (statement : Stmt) :
    Stmt.loopsAll [statement] = statement.loops := by
  rw [Stmt.loopsAll, Stmt.loopsAll, List.append_nil]

theorem Expr.calls_property (object : Expr) (name : String) :
    (object.property name).calls = object.calls := by
  unfold Expr.property
  split
  · rw [Expr.calls, Expr.calls, List.append_nil]
  · rw [Expr.calls]

end DateReviver.TypeScript
