import DateReviver.Proofs.TypeScript.Identifier

/-!
# The names that are printed

Every name that the text of a function has outside of strings, in the order in which it is printed,
with the role that it has there. Words of the language are no names, but what the printer writes after
a dot is.
-/

namespace DateReviver.TypeScript

/-- What a printed name stands for. -/
inductive Role where
  | function
  | param
  | type
  | loop
  /-- A value inside of an expression. -/
  | value
  /-- A property after a dot. -/
  | member
deriving DecidableEq, Repr

/-- The types that a type refers to, under any number of `[]`. -/
def Ty.names : Ty → List String
  | .any => []
  | .array element => element.names
  | .named name => [name]

mutual

@[simp] def Expr.printed : Expr → List (Role × String)
  | .ident name => [(.value, name)]
  | .text _ | .null => []
  | .call callee args | .new callee args => callee.printed ++ Expr.printedAll args
  | .member object property => object.printed ++ [(.member, property)]
  | .index left right | .differs left right | .both left right | .assign left right =>
      left.printed ++ right.printed

@[simp] def Expr.printedAll : List Expr → List (Role × String)
  | [] => []
  | value :: rest => value.printed ++ Expr.printedAll rest

end

mutual

@[simp] def Stmt.printed : Stmt → List (Role × String)
  | .expr value | .ret value => value.printed
  | .guarded test body => test.printed ++ Stmt.printedAll body
  | .forIndex index array body =>
      (.loop, index) :: array.printed ++ (.member, "length") :: Stmt.printedAll body
  | .forOf binding iterable body => (.loop, binding) :: iterable.printed ++ Stmt.printedAll body

@[simp] def Stmt.printedAll : List Stmt → List (Role × String)
  | [] => []
  | statement :: rest => statement.printed ++ Stmt.printedAll rest

end

def Param.printed (param : Param) : List (Role × String) :=
  (.param, param.name) :: ((param.type.map Ty.names).getD []).map (Prod.mk .type)

def Function.printed (f : Function) : List (Role × String) :=
  (.function, f.name) :: f.params.flatMap Param.printed ++ Stmt.printedAll f.body

/-- A printed name is an identifier, and none that is reserved unless it stands after a dot. -/
def Proper (entry : Role × String) : Prop :=
  IsIdentifier entry.2 ∧ (entry.1 ≠ .member → isReserved entry.2 = false)

def Expr.Proper (value : Expr) : Prop :=
  ∀ entry ∈ value.printed, TypeScript.Proper entry

def Stmt.Proper (statement : Stmt) : Prop :=
  ∀ entry ∈ statement.printed, TypeScript.Proper entry

/-- All names in some statements are proper. -/
def Stmt.ProperAll (body : List Stmt) : Prop :=
  ∀ entry ∈ Stmt.printedAll body, TypeScript.Proper entry

/-! ## Proper names by their places -/

section Places

variable {name : String} {left right value : Expr} {statement : Stmt} {body first second : List Stmt}

theorem IsUnreserved.proper {role : Role} (h : IsUnreserved name) : Proper (role, name) :=
  ⟨h.identifier, fun _ => h.notReserved⟩

theorem proper_iff {role : Role} (hrole : role ≠ .member) :
    Proper (role, name) ↔ IsUnreserved name := by
  constructor
  · intro h
    exact ⟨h.1, h.2 hrole⟩
  · exact IsUnreserved.proper

theorem proper_member_iff : Proper (.member, name) ↔ IsIdentifier name := by
  simp [Proper]

theorem Expr.proper_ident (h : IsUnreserved name) : (Expr.ident name).Proper := by
  simpa [Expr.Proper, Expr.printed] using h.proper

@[simp] theorem Expr.proper_null : Expr.null.Proper := by
  simp [Expr.Proper, Expr.printed]

@[simp] theorem Expr.proper_text {text : String} : (Expr.text text).Proper := by
  simp [Expr.Proper, Expr.printed]

@[simp] theorem Expr.proper_index :
    (Expr.index left right).Proper ↔ left.Proper ∧ right.Proper := by
  simp only [Expr.Proper, Expr.printed, List.forall_mem_append]

@[simp] theorem Expr.proper_differs :
    (Expr.differs left right).Proper ↔ left.Proper ∧ right.Proper := by
  simp only [Expr.Proper, Expr.printed, List.forall_mem_append]

@[simp] theorem Expr.proper_both :
    (Expr.both left right).Proper ↔ left.Proper ∧ right.Proper := by
  simp only [Expr.Proper, Expr.printed, List.forall_mem_append]

@[simp] theorem Expr.proper_assign :
    (Expr.assign left right).Proper ↔ left.Proper ∧ right.Proper := by
  simp only [Expr.Proper, Expr.printed, List.forall_mem_append]

@[simp] theorem Expr.proper_member :
    (Expr.member value name).Proper ↔ value.Proper ∧ IsIdentifier name := by
  simp only [Expr.Proper, Expr.printed, List.forall_mem_append, List.forall_mem_singleton,
    proper_member_iff]

/-- A call with one argument. -/
@[simp] theorem Expr.proper_call :
    (Expr.call left [right]).Proper ↔ left.Proper ∧ right.Proper := by
  simp only [Expr.Proper, Expr.printed, Expr.printedAll, List.append_nil, List.forall_mem_append]

/-- A construction with one argument. -/
@[simp] theorem Expr.proper_new :
    (Expr.new left [right]).Proper ↔ left.Proper ∧ right.Proper := by
  simp only [Expr.Proper, Expr.printed, Expr.printedAll, List.append_nil, List.forall_mem_append]

/-- A property stands after a dot only if its name allows it. -/
theorem Expr.proper_property (h : value.Proper) : (value.property name).Proper := by
  unfold Expr.property
  split
  · simp [h]
  · rename_i hdot
    rw [Expr.proper_member, isIdentifier_iff]
    exact ⟨h, by simpa using hdot⟩

theorem Stmt.properAll_nil : Stmt.ProperAll [] := by
  simp [Stmt.ProperAll, Stmt.printedAll]

theorem Stmt.properAll_append : Stmt.ProperAll (first ++ second) ↔
    Stmt.ProperAll first ∧ Stmt.ProperAll second := by
  induction first with
  | nil => simp [Stmt.properAll_nil]
  | cons statement rest ih =>
      simp only [Stmt.ProperAll, List.cons_append, Stmt.printedAll, List.forall_mem_append] at ih ⊢
      rw [ih, and_assoc]

@[simp] theorem Stmt.properAll_singleton : Stmt.ProperAll [statement] ↔ statement.Proper := by
  rw [Stmt.ProperAll, Stmt.printedAll, Stmt.printedAll, List.append_nil]
  rfl

@[simp] theorem Stmt.proper_expr : (Stmt.expr value).Proper ↔ value.Proper := by
  simp only [Stmt.Proper, Stmt.printed, Expr.Proper]

@[simp] theorem Stmt.proper_ret : (Stmt.ret value).Proper ↔ value.Proper := by
  simp only [Stmt.Proper, Stmt.printed, Expr.Proper]

@[simp] theorem Stmt.proper_guarded :
    (Stmt.guarded value body).Proper ↔ value.Proper ∧ Stmt.ProperAll body := by
  simp only [Stmt.Proper, Stmt.printed, List.forall_mem_append, Expr.Proper, Stmt.ProperAll]

@[simp] theorem Stmt.proper_forOf : (Stmt.forOf name value body).Proper ↔
    IsUnreserved name ∧ value.Proper ∧ Stmt.ProperAll body := by
  simp [Stmt.Proper, Stmt.printed, Expr.Proper, Stmt.ProperAll, or_imp, forall_and, proper_iff]

@[simp] theorem Stmt.proper_forIndex : (Stmt.forIndex name value body).Proper ↔
    IsUnreserved name ∧ value.Proper ∧ Stmt.ProperAll body := by
  have hlength : IsIdentifier "length" := by decide
  simp [Stmt.Proper, Stmt.printed, Expr.Proper, Stmt.ProperAll, or_imp, forall_and, proper_iff,
    proper_member_iff, hlength]

end Places

end DateReviver.TypeScript
