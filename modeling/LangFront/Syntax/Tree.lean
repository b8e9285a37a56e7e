/-!
# Syntax trees

A program is a list of function definitions. A function has a name, parameters that pair a
name with a type name, a result type name and a body of statements. A statement declares a
variable, with an optional initial value, or returns a value. An expression is a 32-bit
literal, a variable, or one of the four arithmetic operators applied to two expressions.

Names are plain strings here: a tree may hold any name, also one that no text could spell.
Parentheses leave no trace in a tree; where they are needed is the printer's business.

The height of an expression (`Expr.height`) counts operators on its longest branch; the parser
refuses expressions taller than a fixed bound.
-/

namespace LangFront

/-- The four arithmetic operators. -/
inductive Op where
  | add
  | sub
  | mul
  | div
deriving DecidableEq, Repr

namespace Op

/-- How an operator is written. -/
def symbol : Op → String
  | .add => "+"
  | .sub => "-"
  | .mul => "*"
  | .div => "/"

/-- How tightly an operator binds: multiplication and division before addition and
subtraction. -/
def precedence : Op → Nat
  | .add | .sub => 1
  | .mul | .div => 2

theorem precedence_pos (op : Op) : 0 < op.precedence := by
  cases op <;> decide

theorem precedence_le_two (op : Op) : op.precedence ≤ 2 := by
  cases op <;> decide

end Op

/-- Expressions. -/
inductive Expr where
  /-- A number literal. -/
  | lit (value : Int32)
  /-- A variable, by name. -/
  | var (name : String)
  /-- An operator applied to two operands. -/
  | bin (op : Op) (left right : Expr)
deriving DecidableEq, Repr

namespace Expr

/-- The number of operators on the longest branch. -/
def height : Expr → Nat
  | .lit _ | .var _ => 0
  | .bin _ l r => max l.height r.height + 1

/-- Is the expression an operator application? -/
def isBin : Expr → Bool
  | .bin .. => true
  | _ => false

@[simp] theorem height_lit (n : Int32) : (lit n).height = 0 := rfl
@[simp] theorem height_var (x : String) : (var x).height = 0 := rfl
@[simp] theorem height_bin (op : Op) (l r : Expr) :
    (bin op l r).height = max l.height r.height + 1 := rfl

end Expr

/-- Statements of a function body. -/
inductive Stmt where
  /-- A variable declaration with a type name and an optional initial value. -/
  | decl (name type : String) (init : Option Expr)
  /-- A return of a value. -/
  | ret (value : Expr)
deriving DecidableEq, Repr

/-- A parameter: a name and a type name. -/
structure Param where
  name : String
  type : String
deriving DecidableEq, Repr

/-- A function definition. -/
structure FunctionDef where
  name : String
  params : List Param
  result : String
  body : List Stmt
deriving DecidableEq, Repr

/-- A program: its function definitions in order. -/
structure Program where
  functions : List FunctionDef
deriving DecidableEq, Repr

end LangFront
