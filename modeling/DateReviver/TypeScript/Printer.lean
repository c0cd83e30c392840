import DateReviver.TypeScript.Syntax
import DateReviver.TypeScript.StringLiteral

/-!
# The text of TypeScript trees

Two spaces per level of nesting, one statement to a line, no parentheses but those of calls,
guards and loops.
-/

namespace DateReviver.TypeScript

def Ty.render : Ty → String
  | .any => "any"
  | .array element => element.render ++ "[]"
  | .named name => name

mutual

def Expr.render : Expr → String
  | .ident name => name
  | .text value => quote value
  | .null => "null"
  | .call callee args => callee.render ++ "(" ++ ", ".intercalate (Expr.renderAll args) ++ ")"
  | .new callee args =>
      "new " ++ callee.render ++ "(" ++ ", ".intercalate (Expr.renderAll args) ++ ")"
  | .member object property => object.render ++ "." ++ property
  | .index object key => object.render ++ "[" ++ key.render ++ "]"
  | .differs left right => left.render ++ " !== " ++ right.render
  | .both left right => left.render ++ " && " ++ right.render
  | .assign target value => target.render ++ " = " ++ value.render

def Expr.renderAll : List Expr → List String
  | [] => []
  | e :: rest => e.render :: Expr.renderAll rest

end

/-- The blank start of a line at a level of nesting. -/
def indentation (level : Nat) : String :=
  String.ofList (List.replicate (2 * level) ' ')

mutual

/-- The lines of a statement at a level of nesting. -/
def Stmt.render (level : Nat) : Stmt → String
  | .expr value => indentation level ++ value.render ++ ";\n"
  | .guarded test body =>
      indentation level ++ "if (" ++ test.render ++ ") \x7b\n"
        ++ Stmt.renderAll (level + 1) body ++ indentation level ++ "\x7d\n"
  | .forIndex index array body =>
      indentation level ++ "for (let " ++ index ++ " = 0; " ++ index ++ " < " ++ array.render
        ++ ".length; " ++ index ++ "++) \x7b\n"
        ++ Stmt.renderAll (level + 1) body ++ indentation level ++ "\x7d\n"
  | .forOf binding iterable body =>
      indentation level ++ "for (const " ++ binding ++ " of " ++ iterable.render ++ ") \x7b\n"
        ++ Stmt.renderAll (level + 1) body ++ indentation level ++ "\x7d\n"
  | .ret value => indentation level ++ "return " ++ value.render ++ ";\n"

/-- The lines of statements at a level of nesting, in order. -/
def Stmt.renderAll (level : Nat) : List Stmt → String
  | [] => ""
  | s :: rest => s.render level ++ Stmt.renderAll level rest

end

def Param.render (p : Param) : String :=
  match p.type with
  | some type => p.name ++ ": " ++ type.render
  | none => p.name

/-- The text of a function. An empty body stays on the line of its head. -/
def Function.render (f : Function) : String :=
  (if f.exported then "export " else "") ++ "function " ++ f.name
    ++ "(" ++ ", ".intercalate (f.params.map Param.render) ++ ")"
    ++ match f.body with
      | [] => " \x7b\x7d\n"
      | body => " \x7b\n" ++ Stmt.renderAll 1 body ++ "\x7d\n"

/-- The text of a module: its functions with a blank line between two. -/
def Module.render (m : Module) : String :=
  "\n".intercalate (m.map Function.render)

end DateReviver.TypeScript
