import Mathlib
import LangFront.Syntax.Parse.Expr
/-!
# Reading expressions by layers

The grammar of expressions in layers, read without any bound on nesting:

    expression ::= term (("+" | "-") term)*
    term       ::= factor (("*" | "/") factor)*
    factor     ::= number | name | "(" expression ")"

Each run of operators of one layer groups to the left, and parentheses leave no node. This
reader is the specification of precedence climbing (`Parse.expr`): the two agree wherever the
climbing reader stays within its bounds. `layeredAt` and `layeredAfter` cut the reader at the
layer of a bound, the shape in which climbing reads it.
-/

namespace LangFront.Parse

open Token

/-- The additive operator a token kind stands for. -/
def addOp? : Kind → Option Op
  | .plus => some .add
  | .minus => some .sub
  | _ => none

/-- The multiplicative operator a token kind stands for. -/
def mulOp? : Kind → Option Op
  | .asterisk => some .mul
  | .slash => some .div
  | _ => none

theorem ne_endOfFile_of_addOp? {k : Kind} {op : Op} (h : addOp? k = some op) :
    k ≠ .endOfFile := by
  cases k <;> simp_all [addOp?]

theorem ne_endOfFile_of_mulOp? {k : Kind} {op : Op} (h : mulOp? k = some op) :
    k ≠ .endOfFile := by
  cases k <;> simp_all [mulOp?]

mutual

/-- Read an expression: terms joined by additive operators. Nothing is read if no factor
stands next. -/
def layeredExpr (s : Stream) : Except ParseError (Option (Expr × Rest s)) :=
  match layeredTerm s with
  | .error e => .error e
  | .ok none => .ok none
  | .ok (some (e, ⟨s1, h1⟩)) =>
    match addTail e s1 with
    | .error e => .error e
    | .ok (e', ⟨s2, h2⟩) => .ok (some (e', ⟨s2, h2.trans h1⟩))
termination_by 5 * s.size + 4

/-- Read a term: factors joined by multiplicative operators. -/
def layeredTerm (s : Stream) : Except ParseError (Option (Expr × Rest s)) :=
  match layeredFactor s with
  | .error e => .error e
  | .ok none => .ok none
  | .ok (some (e, ⟨s1, h1⟩)) =>
    match mulTail e s1 with
    | .error e => .error e
    | .ok (e', ⟨s2, h2⟩) => .ok (some (e', ⟨s2, h2.trans h1⟩))
termination_by 5 * s.size + 3

/-- After `left`, read each additive operator and the term after it. -/
def addTail (left : Expr) (s : Stream) : Except ParseError (Expr × Rest s) :=
  match hk : addOp? s.current.kind with
  | none => .ok (left, Rest.self s)
  | some op =>
    have h1 : s.advance.size < s.size := Stream.size_advance_lt (ne_endOfFile_of_addOp? hk)
    match layeredTerm s.advance with
    | .error e => .error e
    | .ok none => .error (stuck .rightOperand s.advance)
    | .ok (some (r, ⟨s2, h2⟩)) =>
      match addTail (.bin op left r) s2 with
      | .error e => .error e
      | .ok (e, ⟨s3, h3⟩) => .ok (e, ⟨s3, by omega⟩)
termination_by 5 * s.size + 2

/-- After `left`, read each multiplicative operator and the factor after it. -/
def mulTail (left : Expr) (s : Stream) : Except ParseError (Expr × Rest s) :=
  match hk : mulOp? s.current.kind with
  | none => .ok (left, Rest.self s)
  | some op =>
    have h1 : s.advance.size < s.size := Stream.size_advance_lt (ne_endOfFile_of_mulOp? hk)
    match layeredFactor s.advance with
    | .error e => .error e
    | .ok none => .error (stuck .rightOperand s.advance)
    | .ok (some (r, ⟨s2, h2⟩)) =>
      match mulTail (.bin op left r) s2 with
      | .error e => .error e
      | .ok (e, ⟨s3, h3⟩) => .ok (e, ⟨s3, by omega⟩)
termination_by 5 * s.size + 1

/-- Read a factor: a number, a name, or an expression in parentheses. -/
def layeredFactor (s : Stream) : Except ParseError (Option (Expr × Rest s)) :=
  match hp : s.accept? .openParen with
  | some (_, s1) =>
    have h1 : s1.size < s.size := Stream.size_lt_of_accept? hp (by decide)
    match layeredExpr s1 with
    | .error e => .error e
    | .ok none => .error (stuck .expression s1)
    | .ok (some (e, ⟨s2, h2⟩)) =>
      match hc : s2.accept? .closeParen with
      | some (_, s3) => .ok (some (e, ⟨s3, by have := Stream.size_le_of_accept? hc; omega⟩))
      | none => .error (stuck .closeParen s2)
  | none =>
    if s.peekIs .number then
      match s.current.number? with
      | some n => .ok (some (.lit n, ⟨s.advance, Stream.size_advance_le s⟩))
      | none => .error (stuck .valueMissing s)
    else
      match name? s with
      | .error e => .error e
      | .ok none => .ok none
      | .ok (some (x, s1)) => .ok (some (.var x, s1))
termination_by 5 * s.size

end

/-- The layered reading of the layer that climbing with bound `b` reads. -/
def layeredAt (b : Nat) (s : Stream) : Except ParseError (Option (Expr × Rest s)) :=
  match b with
  | 0 => layeredExpr s
  | 1 => layeredTerm s
  | _ + 2 => layeredFactor s

/-- What the layered reader reads after a first factor `left` in the layer of bound `b`: both
tails for an expression, the multiplicative one for a term, nothing for a factor. -/
def layeredAfter (b : Nat) (left : Expr) (s : Stream) : Except ParseError (Expr × Rest s) :=
  match b with
  | 0 =>
    match mulTail left s with
    | .error e => .error e
    | .ok (m, ⟨s1, h1⟩) =>
      match addTail m s1 with
      | .error e => .error e
      | .ok (e, ⟨s2, h2⟩) => .ok (e, ⟨s2, h2.trans h1⟩)
  | 1 => mulTail left s
  | _ + 2 => .ok (left, Rest.self s)

end LangFront.Parse
