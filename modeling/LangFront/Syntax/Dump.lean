import LangFront.Syntax.Tree
import LangFront.Text.Escape
/-!
# Dumping a syntax tree

A tree is dumped as a derived debug printer lays out a value in its alternate form. A record is
its name and an opening brace, one line per field (`name: value,`) and a closing brace; a
variant with values is its name and an opening parenthesis, one line per value and a closing
parenthesis; a sequence is its values between brackets, or `[]` when it is empty. A value that
takes several lines is indented by four blanks as a whole inside the one around it. Texts are
quoted (`Text.quote`).

The dump names the parts of a program `SyntaxTree`, `FunctionDefinition`, `FunctionParameter`,
`BlockStatement`, `VariableDeclaration` and `Return`, and those of an expression `Literal`,
`Identifier` and `Binary`.
-/

namespace LangFront

/-- A value as a debug printer lays it out. -/
inductive Dump where
  /-- A record with named fields. -/
  | record (name : String) (fields : List (String × Dump))
  /-- A variant with its values in order. -/
  | tagged (name : String) (values : List Dump)
  /-- A sequence of values. -/
  | list (values : List Dump)
  /-- A text, written quoted. -/
  | text (s : String)
  /-- A bare word: a number, or a variant without values. -/
  | word (s : String)

namespace Dump

/-- The lines `ls` of a value as one entry of a block: indented by four blanks, the first after
`pre`, and the last closed by a comma. -/
def entry (pre : String) : List String → List String
  | [] => []
  | [l] => ["    " ++ pre ++ l ++ ","]
  | l :: ls => ("    " ++ pre ++ l) :: entry "" ls

mutual

/-- The lines of a value in the alternate layout. -/
def lines : Dump → List String
  | record name [] => [name]
  | record name fs => (name ++ " \x7b") :: fieldLines fs ++ ["\x7d"]
  | tagged name [] => [name]
  | tagged name vs => (name ++ "(") :: valueLines vs ++ [")"]
  | list [] => ["[]"]
  | list vs => "[" :: valueLines vs ++ ["]"]
  | text s => [Text.quote s]
  | word s => [s]

/-- The entries of a record's fields. -/
def fieldLines : List (String × Dump) → List String
  | [] => []
  | (f, v) :: fs => entry (f ++ ": ") (lines v) ++ fieldLines fs

/-- The entries of a variant's or a sequence's values. -/
def valueLines : List Dump → List String
  | [] => []
  | v :: vs => entry "" (lines v) ++ valueLines vs

end

/-- The layout as one text, its lines separated by line feeds. -/
def render (d : Dump) : String :=
  "\n".intercalate d.lines

/-- An optional value: `None`, or `Some` with the value. -/
def option : Option Dump → Dump
  | none => word "None"
  | some d => tagged "Some" [d]

/-- A name of a function, parameter, type or variable: a record with the name as its one
field. -/
def identifier (x : String) : Dump :=
  record "Identifier" [("name", text x)]

end Dump

open Dump

/-- The dump of an operator: the name of its variant. -/
def Op.dump : Op → Dump
  | .add => word "Add"
  | .sub => word "Subtract"
  | .mul => word "Multiply"
  | .div => word "Divide"

/-- The dump of an expression. -/
def Expr.dump : Expr → Dump
  | .lit n => tagged "Literal" [word (toString n.toInt)]
  | .var x => tagged "Identifier" [text x]
  | .bin op l r => record "Binary" [("left", l.dump), ("right", r.dump), ("operator", op.dump)]

/-- The dump of a statement. -/
def Stmt.dump : Stmt → Dump
  | .decl x t init =>
    record "VariableDeclaration"
      [("name", identifier x), ("ty", identifier t), ("initializer", option (init.map Expr.dump))]
  | .ret e => record "Return" [("value", e.dump)]

/-- The dump of a parameter. -/
def Param.dump (p : Param) : Dump :=
  record "FunctionParameter" [("name", identifier p.name), ("ty", identifier p.type)]

/-- The dump of a function definition, its body a block of statements. -/
def FunctionDef.dump (f : FunctionDef) : Dump :=
  record "FunctionDefinition"
    [("name", identifier f.name), ("parameters", list (f.params.map Param.dump)),
      ("return_type", identifier f.result),
      ("body", record "BlockStatement" [("statements", list (f.body.map Stmt.dump))])]

/-- The dump of a program. -/
def Program.dump (t : Program) : Dump :=
  record "SyntaxTree" [("functions", list (t.functions.map FunctionDef.dump))]

example : (Program.dump ⟨[⟨"f", [⟨"a", "int"⟩], "int", [.ret (.bin .sub (.var "a") (.lit 1))]⟩]⟩).lines =
    ["SyntaxTree \x7b",
     "    functions: [",
     "        FunctionDefinition \x7b",
     "            name: Identifier \x7b",
     "                name: \"f\",",
     "            \x7d,",
     "            parameters: [",
     "                FunctionParameter \x7b",
     "                    name: Identifier \x7b",
     "                        name: \"a\",",
     "                    \x7d,",
     "                    ty: Identifier \x7b",
     "                        name: \"int\",",
     "                    \x7d,",
     "                \x7d,",
     "            ],",
     "            return_type: Identifier \x7b",
     "                name: \"int\",",
     "            \x7d,",
     "            body: BlockStatement \x7b",
     "                statements: [",
     "                    Return \x7b",
     "                        value: Binary \x7b",
     "                            left: Identifier(",
     "                                \"a\",",
     "                            ),",
     "                            right: Literal(",
     "                                1,",
     "                            ),",
     "                            operator: Subtract,",
     "                        \x7d,",
     "                    \x7d,",
     "                ],",
     "            \x7d,",
     "        \x7d,",
     "    ],",
     "\x7d"] := by cbv

end LangFront
