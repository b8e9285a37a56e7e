import Mathlib
import LangFront.Text.CharClass
import LangFront.Token.Kind
import LangFront.Syntax.Parse.Expr
/-!
# Well-formed programs

A program is well formed when its canonical text reads back as the same program: every name
scans as one name token, every literal is written without a sign, every declaration has an
initial value, and no expression is taller than the parser allows.

The round-trip theorem of the library says that these are exactly the programs that survive
formatting and reading back.
-/

namespace LangFront

open Text

/-- A name that scans back as one name token: an alphabetic character, then alphanumeric
ones, and not spelt like a keyword. -/
def IsName (s : String) : Prop :=
  (match s.toList with
   | c :: cs => isAlphabetic c = true ∧ ∀ d ∈ cs, isAlphanumeric d = true
   | [] => False) ∧
  Token.Kind.keyword? s = none

/-- Every name of the expression is a name token and every literal is non-negative. -/
def Expr.WellFormed : Expr → Prop
  | .lit n => 0 ≤ n.toInt
  | .var x => IsName x
  | .bin _ l r => l.WellFormed ∧ r.WellFormed

/-- An expression the parser reads back: well formed and no taller than the parser's bound. -/
def Expr.Readable (e : Expr) : Prop := e.WellFormed ∧ e.height ≤ Parse.maxHeight

/-- A statement whose names are name tokens and whose expression is readable; a declaration
must have an initial value. -/
def Stmt.WellFormed : Stmt → Prop
  | .decl x t (some e) => IsName x ∧ IsName t ∧ e.Readable
  | .decl _ _ none => False
  | .ret e => e.Readable

/-- A function whose names are name tokens and whose statements are well formed. -/
def FunctionDef.WellFormed (f : FunctionDef) : Prop :=
  IsName f.name ∧ (∀ p ∈ f.params, IsName p.name ∧ IsName p.type) ∧ IsName f.result ∧
    ∀ s ∈ f.body, s.WellFormed

/-- A program whose functions are all well formed. -/
def Program.WellFormed (t : Program) : Prop := ∀ f ∈ t.functions, f.WellFormed

end LangFront
