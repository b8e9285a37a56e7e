import LangFront.Syntax.Tree
import LangFront.Layout.Piece
/-!
# Laying out programs

The canonical text of a program. A function is written on its header line
`function name(a: int, b: int): int {`, one line per statement indented by one level, and a
closing `}` line; functions are separated by an empty line. A declaration is
`var name: type = value;` (or `var name: type;` without a value) and a return is
`return value;`. Every operand that is itself an operator application is written in
parentheses, so no precedence rule is needed to read the text back.

`Program.format` prints the layout with a chosen indentation width. A `Formatter` does the same
with a printer of its own, which it replaces by a fresh one after each program, so that one
formatter can format many programs.
-/

namespace LangFront

open Layout

/-- Layout options: how many blanks one level of indentation is. -/
structure FormatOptions where
  indentWidth : Nat := 4
deriving DecidableEq, Repr

/-- Put `ps` in parentheses when `paren` holds. -/
def Layout.parenthesize (paren : Bool) (ps : List Piece) : List Piece :=
  if paren then .text "(" :: ps ++ [.text ")"] else ps

/-- The decimal text of a 32-bit literal, with a minus sign when negative. -/
def Expr.litText (n : Int32) : String := toString n.toInt

/-- The layout of an expression. -/
def Expr.layout : Expr → List Piece
  | .lit n => [.text (Expr.litText n)]
  | .var x => [.text x]
  | .bin op l r =>
    parenthesize l.isBin l.layout ++ [.text " ", .text op.symbol, .text " "] ++
      parenthesize r.isBin r.layout

/-- The layout of a statement, closed by a line break. -/
def Stmt.layout : Stmt → List Piece
  | .decl x t init =>
    [.text "var ", .text x, .text ": ", .text t] ++
      (match init with
       | some e => .text " = " :: e.layout
       | none => []) ++
      [.text ";", .newline]
  | .ret e => .text "return " :: e.layout ++ [.text ";", .newline]

/-- The layout of a parameter. -/
def Param.layout (p : Param) : List Piece :=
  [.text p.name, .text ": ", .text p.type]

/-- Join layouts, putting `sep` between each two. -/
def Layout.joinWith (sep : List Piece) : List (List Piece) → List Piece
  | [] => []
  | [ps] => ps
  | ps :: qs => ps ++ sep ++ joinWith sep qs

/-- The layout of a function definition. -/
def FunctionDef.layout (f : FunctionDef) : List Piece :=
  [.text "function ", .text f.name, .text "("] ++
    joinWith [.text ", "] (f.params.map Param.layout) ++
    [.text "): ", .text f.result, .text " "] ++
    [.text "\x7b", .newline, .indent] ++ f.body.flatMap Stmt.layout ++
    [.dedent, .text "\x7d", .newline]

/-- The layout of a program: its functions, an empty line between each two. -/
def Program.layout (t : Program) : List Piece :=
  joinWith [.newline] (t.functions.map FunctionDef.layout)

/-- The canonical text of a program. -/
def Program.format (opts : FormatOptions) (t : Program) : String :=
  print opts.indentWidth t.layout

/-- A formatter: its options and the printer it writes into. -/
structure Formatter where
  options : FormatOptions
  printer : Printer

namespace Formatter

/-- A formatter with a fresh printer. -/
def new (opts : FormatOptions) : Formatter := ⟨opts, {}⟩

/-- Format a program: print its layout into the formatter's printer, hand out the printer's
text, and leave a fresh printer in its place for the next program. -/
def format (f : Formatter) (t : Program) : String × Formatter :=
  ((t.layout.foldl (Printer.step f.options.indentWidth) f.printer).out, new f.options)

/-- Format programs one after another with one formatter. -/
def formatAll (f : Formatter) : List Program → List String
  | [] => []
  | t :: ts => (f.format t).1 :: (f.format t).2.formatAll ts

end Formatter

end LangFront
