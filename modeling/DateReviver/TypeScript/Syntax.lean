/-!
# TypeScript syntax

The part of TypeScript that date conversion is written in: types of parameters, access paths and
assignments, guards and loops, and the functions of a module. Text is made from these trees by
`DateReviver.TypeScript.Printer`; every other module builds and compares trees only.
-/

namespace DateReviver.TypeScript

inductive Ty where
  | any
  | array (element : Ty)
  | named (name : String)
deriving DecidableEq, Inhabited

inductive Expr where
  | ident (name : String)
  | text (value : String)
  | null
  | call (callee : Expr) (args : List Expr)
  | new (callee : Expr) (args : List Expr)
  | member (object : Expr) (property : String)
  | index (object : Expr) (key : Expr)
  /-- Strict inequality of two values. -/
  | differs (left right : Expr)
  /-- Conjunction of two tests. -/
  | both (left right : Expr)
  | assign (target value : Expr)
deriving Inhabited

/-- A statement of a function body. A guard never needs an alternative. -/
inductive Stmt where
  | expr (value : Expr)
  | guarded (test : Expr) (body : List Stmt)
  /-- A walk over the positions of an array. -/
  | forIndex (index : String) (array : Expr) (body : List Stmt)
  /-- A walk over the items of an iterable. -/
  | forOf (binding : String) (iterable : Expr) (body : List Stmt)
  | ret (value : Expr)
deriving Inhabited

/-- A parameter, with its type where one is declared. -/
structure Param where
  name : String
  type : Option Ty
deriving DecidableEq, Inhabited

structure Function where
  name : String
  params : List Param
  body : List Stmt
  exported : Bool
deriving Inhabited

/-- A module is the list of its functions. -/
abbrev Module := List Function

end DateReviver.TypeScript
