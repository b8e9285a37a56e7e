import LangFront.Syntax.Tree
import LangFront.Syntax.Parse.Basic
/-!
# Reading expressions

Expressions are read by precedence climbing. An operand is a number, a name or an expression in
parentheses. After an operand, every operator that binds tighter than the current bound is
read with its right operand, which is itself read with the operator's precedence as its bound;
so operators of one precedence group to the left.

Two bounds keep the reading shallow:

* at most `maxOpen` expression readings may be open at once: the whole expression, each
  parenthesised one and each right operand opens one, and opening one more is refused at the
  token where it would start;
* no expression may be taller than `maxHeight` operators: the operator whose right operand
  makes it taller is refused at the token after that operand.

Each reading returns the expression, its height and the rest of the stream.
-/

namespace LangFront

/-- The operator a token kind stands for. -/
def Op.ofKind? : Token.Kind → Option Op
  | .plus => some .add
  | .minus => some .sub
  | .asterisk => some .mul
  | .slash => some .div
  | _ => none

theorem Op.ne_endOfFile_of_ofKind? {k : Token.Kind} {op : Op} (h : Op.ofKind? k = some op) :
    k ≠ .endOfFile := by
  cases k <;> simp_all [Op.ofKind?]

namespace Parse

open Token

/-- The most expression readings that may be open at once. -/
def maxOpen : Nat := 513

/-- The greatest height of an expression. -/
def maxHeight : Nat := 256

/-- An expression read from the front of `s`, its height, and the rest of `s`. -/
abbrev ExprRead (s : Stream) := Expr × Nat × Rest s

mutual

/-- Read an expression whose operators bind tighter than `bound`, with `depth` readings already
open; nothing is read if no operand stands next. -/
def expr (depth bound : Nat) (s : Stream) : Except ParseError (Option (ExprRead s)) :=
  if depth ≥ maxOpen then .error (stuck .tooDeep s)
  else
    match operand (depth + 1) s with
    | .error e => .error e
    | .ok none => .ok none
    | .ok (some (e, h, ⟨s1, h1⟩)) =>
      match climb (depth + 1) bound e h s1 with
      | .error e => .error e
      | .ok (e', h', ⟨s2, h2⟩) => .ok (some (e', h', ⟨s2, Nat.le_trans h2 h1⟩))
termination_by 3 * s.size + 2

/-- Read an operand: an expression in parentheses, a number or a name. -/
def operand (depth : Nat) (s : Stream) : Except ParseError (Option (ExprRead s)) :=
  match hp : s.accept? .openParen with
  | some (_, s1) =>
    have h1 : s1.size < s.size := Stream.size_lt_of_accept? hp (by decide)
    match expr depth 0 s1 with
    | .error e => .error e
    | .ok none => .error (stuck .expression s1)
    | .ok (some (e, h, ⟨s2, h2⟩)) =>
      match hc : s2.accept? .closeParen with
      | some (_, s3) =>
        .ok (some (e, h, ⟨s3, by have := Stream.size_le_of_accept? hc; omega⟩))
      | none => .error (stuck .closeParen s2)
  | none =>
    if s.peekIs .number then
      match s.current.number? with
      | some n => .ok (some (.lit n, 0, ⟨s.advance, Stream.size_advance_le s⟩))
      | none => .error (stuck .valueMissing s)
    else
      match name? s with
      | .error e => .error e
      | .ok none => .ok none
      | .ok (some (x, s1)) => .ok (some (.var x, 0, s1))
termination_by 3 * s.size + 1

/-- Having read `left` of height `h`, read every operator that binds tighter than `bound`
together with its right operand, grouping to the left. -/
def climb (depth bound : Nat) (left : Expr) (h : Nat) (s : Stream) :
    Except ParseError (ExprRead s) :=
  match hk : Op.ofKind? s.current.kind with
  | none => .ok (left, h, Rest.self s)
  | some op =>
    if op.precedence ≤ bound then .ok (left, h, Rest.self s)
    else
      have h1 : s.advance.size < s.size :=
        Stream.size_advance_lt (Op.ne_endOfFile_of_ofKind? hk)
      match expr depth op.precedence s.advance with
      | .error e => .error e
      | .ok none => .error (stuck .rightOperand s.advance)
      | .ok (some (r, rh, ⟨s2, h2⟩)) =>
        if maxHeight < max h rh + 1 then .error (stuck .tooDeep s2)
        else
          match climb depth bound (.bin op left r) (max h rh + 1) s2 with
          | .error e => .error e
          | .ok (e, h', ⟨s3, h3⟩) => .ok (e, h', ⟨s3, by omega⟩)
termination_by 3 * s.size

end

/-- Read a whole expression, or fail with reason `r` if no operand stands next. -/
def expectExpr (r : Reason) (s : Stream) : Except ParseError (Expr × Rest s) :=
  match expr 0 0 s with
  | .error e => .error e
  | .ok none => .error (stuck r s)
  | .ok (some (e, _, s')) => .ok (e, s')

end Parse

end LangFront
