import DateReviver.Proofs.TypeScript.Occurrence
import DateReviver.Proofs.TypeScript.Printed

/-!
# Replacing names

Names in statements are replaced where they stand as values, by expressions, and where loops bind them,
by other names. A renaming replaces both alike; a substitution replaces one value and leaves the loops
as they are. Nothing is said here of what is bound where: a name that a loop binds is replaced inside of
that loop as well, and what is put in may be captured by the loops around its place.
-/

namespace DateReviver.TypeScript

/-- What becomes of names. -/
structure Replacement where
  /-- The name that a loop has for its variable instead. -/
  binder : String → String
  /-- What stands instead of a name that stands for a value. -/
  value : String → Expr

namespace Replacement

/-- Other names for names. -/
def rename (f : String → String) : Replacement :=
  ⟨f, fun name => .ident (f name)⟩

/-- An expression instead of one name. -/
def single (name : String) (value : Expr) : Replacement :=
  ⟨id, Function.update Expr.ident name value⟩

end Replacement

mutual

def Expr.replace (ρ : Replacement) : Expr → Expr
  | .ident name => ρ.value name
  | .text value => .text value
  | .null => .null
  | .call callee args => .call (callee.replace ρ) (Expr.replaceAll ρ args)
  | .new callee args => .new (callee.replace ρ) (Expr.replaceAll ρ args)
  | .member object property => .member (object.replace ρ) property
  | .index object key => .index (object.replace ρ) (key.replace ρ)
  | .differs left right => .differs (left.replace ρ) (right.replace ρ)
  | .both left right => .both (left.replace ρ) (right.replace ρ)
  | .assign target value => .assign (target.replace ρ) (value.replace ρ)

def Expr.replaceAll (ρ : Replacement) : List Expr → List Expr
  | [] => []
  | value :: rest => value.replace ρ :: Expr.replaceAll ρ rest

end

mutual

def Stmt.replace (ρ : Replacement) : Stmt → Stmt
  | .expr value => .expr (value.replace ρ)
  | .guarded test body => .guarded (test.replace ρ) (Stmt.replaceAll ρ body)
  | .forIndex index array body =>
      .forIndex (ρ.binder index) (array.replace ρ) (Stmt.replaceAll ρ body)
  | .forOf binding iterable body =>
      .forOf (ρ.binder binding) (iterable.replace ρ) (Stmt.replaceAll ρ body)
  | .ret value => .ret (value.replace ρ)

def Stmt.replaceAll (ρ : Replacement) : List Stmt → List Stmt
  | [] => []
  | statement :: rest => statement.replace ρ :: Stmt.replaceAll ρ rest

end

/-- A name stands for a value in an expression. -/
def Expr.Mentions (value : Expr) (name : String) : Prop :=
  (Role.value, name) ∈ value.printed

section Replace

variable {ρ : Replacement} {name : String} {value : Expr} {body : List Stmt}

theorem Expr.replace_property :
    (value.property name).replace ρ = (value.replace ρ).property name := by
  unfold Expr.property
  split
  · rw [Expr.replace, Expr.replace]
  · rw [Expr.replace]

theorem Expr.replace_single : (Expr.ident name).replace (.single name value) = value := by
  rw [Expr.replace]
  exact Function.update_self name value Expr.ident

theorem Stmt.replaceAll_append (first second : List Stmt) :
    Stmt.replaceAll ρ (first ++ second) = Stmt.replaceAll ρ first ++ Stmt.replaceAll ρ second := by
  induction first with
  | nil => rfl
  | cons statement rest ih =>
      rw [List.cons_append, Stmt.replaceAll, Stmt.replaceAll, ih, List.cons_append]

theorem Stmt.isEmpty_replaceAll : (Stmt.replaceAll ρ body).isEmpty = body.isEmpty := by
  cases body <;> rfl

end Replace

end DateReviver.TypeScript
