import Mathlib
import LangFront.Syntax.Tree
import LangFront.Layout.Program
/-!
# Rendering programs as text

`Program.render` writes the canonical text of a program directly as a string, with no printer
state: the functions joined by line breaks, each statement on its own line after the
indentation of one level. It is the specification of `Program.format`, which prints the layout
pieces of a program; the two agree for every program and every width.
-/

namespace LangFront

/-- The text of an expression; an operand that is an operator application is in parentheses. -/
def Expr.render : Expr → String
  | .lit n => Expr.litText n
  | .var x => x
  | .bin op l r =>
    (if l.isBin then "(" ++ l.render ++ ")" else l.render) ++ " " ++ op.symbol ++ " " ++
      (if r.isBin then "(" ++ r.render ++ ")" else r.render)

/-- The text of a statement, without indentation or line break. -/
def Stmt.render : Stmt → String
  | .decl x t (some e) => "var " ++ x ++ ": " ++ t ++ " = " ++ e.render ++ ";"
  | .decl x t none => "var " ++ x ++ ": " ++ t ++ ";"
  | .ret e => "return " ++ e.render ++ ";"

/-- The text of a function definition, its body indented by `width` blanks. -/
def FunctionDef.render (width : Nat) (f : FunctionDef) : String :=
  "function " ++ f.name ++ "(" ++ ", ".intercalate (f.params.map fun p => p.name ++ ": " ++ p.type) ++
    "): " ++ f.result ++ " \x7b\n" ++
    String.join (f.body.map fun s => String.ofList (List.replicate width ' ') ++ s.render ++ "\n") ++
    "\x7d\n"

/-- The text of a program: its functions, an empty line between each two. -/
def Program.render (width : Nat) (t : Program) : String :=
  "\n".intercalate (t.functions.map (FunctionDef.render width))

end LangFront
