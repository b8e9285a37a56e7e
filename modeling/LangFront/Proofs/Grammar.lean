import LangFront.Syntax.Parse.Layered
/-!
# The grammar of programs

The language the parser reads, as derivations over lists of tokens:

    program    ::= function*
    function   ::= "function" name "(" (param ("," param)*)? ")" ":" name block
    param      ::= name ":" name
    block      ::= "{" statement* "}"
    statement  ::= "var" name ":" name "=" expression ";" | "return" expression ";"
    expression ::= term (("+" | "-") term)*
    term       ::= factor (("*" | "/") factor)*
    factor     ::= number | name | "(" expression ")"

A name is a name token that carries a name, a number is a number token that carries a number,
and every other terminal is matched by the kind of its token alone. A derivation yields the tree
the parser builds: each run of operators of one layer groups to the left, and parentheses leave
no node.

A derivation of an expression also records its nesting level: how many expression readings are
open at each point, counted as the parser counts them, one for the whole expression, one for
each expression in parentheses, one for each term after an additive operator and one for each
factor after a multiplicative one. `Limits` bounds these levels and the heights of the
expressions of a derivation; a sentence of the grammar is a program within some limits,
followed by an end token.
-/

namespace LangFront.Grammar

open Token Parse

/-- Bounds on the expressions of a derivation: how many expression readings may be open at
once, and how tall an expression may be. -/
structure Limits where
  depth : Nat
  height : Nat

/-- The bounds the parser keeps. -/
def Limits.parser : Limits := ⟨maxOpen, maxHeight⟩

/-- The token stands for the name `x`: a name token that carries `x`. -/
def NameToken (t : Token) (x : String) : Prop := t.kind = .identifier ∧ t.name? = some x

/-- The token stands for the number `n`: a number token that carries `n`. -/
def NumberToken (t : Token) (n : Int32) : Prop := t.kind = .number ∧ t.number? = some n

/-- The symbols of the expression grammar. A tail reads the operators of one layer with their
operands after a tree `left` already read. -/
inductive Sym where
  | expr
  | term
  | factor
  | addTail (left : Expr)
  | mulTail (left : Expr)

/-- `Derives lim g n e u`: the tokens `u` are a phrase of the symbol `g` at nesting level `n`
that yields the tree `e`, and no level of the derivation exceeds `lim`. -/
inductive Derives (lim : Nat) : Sym → Nat → Expr → List Token → Prop
  | number {n : Nat} {t : Token} {v : Int32} :
      n ≤ lim → NumberToken t v → Derives lim .factor n (.lit v) [t]
  | name {n : Nat} {t : Token} {x : String} :
      n ≤ lim → NameToken t x → Derives lim .factor n (.var x) [t]
  | paren {n : Nat} {e : Expr} {u : List Token} {o c : Token} :
      o.kind = .openParen → Derives lim .expr (n + 1) e u → c.kind = .closeParen →
        Derives lim .factor n e (o :: u ++ [c])
  | term {n : Nat} {f e : Expr} {u v : List Token} :
      Derives lim .factor n f u → Derives lim (.mulTail f) n e v → Derives lim .term n e (u ++ v)
  | expr {n : Nat} {f e : Expr} {u v : List Token} :
      Derives lim .term n f u → Derives lim (.addTail f) n e v → Derives lim .expr n e (u ++ v)
  | mulNil {n : Nat} {left : Expr} : Derives lim (.mulTail left) n left []
  | mulCons {n : Nat} {left r e : Expr} {op : Op} {t : Token} {u v : List Token} :
      mulOp? t.kind = some op → Derives lim .factor (n + 1) r u →
        Derives lim (.mulTail (.bin op left r)) n e v → Derives lim (.mulTail left) n e (t :: u ++ v)
  | addNil {n : Nat} {left : Expr} : Derives lim (.addTail left) n left []
  | addCons {n : Nat} {left r e : Expr} {op : Op} {t : Token} {u v : List Token} :
      addOp? t.kind = some op → Derives lim .term (n + 1) r u →
        Derives lim (.addTail (.bin op left r)) n e v → Derives lim (.addTail left) n e (t :: u ++ v)

/-- Phrases of `P`, one after another. -/
inductive Star {α : Type} (P : α → List Token → Prop) : List α → List Token → Prop
  | nil : Star P [] []
  | cons {a : α} {as : List α} {u v : List Token} : P a u → Star P as v → Star P (a :: as) (u ++ v)

/-- A parameter: its name, a colon and its type. -/
inductive ParamPhrase : Param → List Token → Prop
  | mk {a b c : Token} {x ty : String} :
      NameToken a x → b.kind = .colon → NameToken c ty → ParamPhrase ⟨x, ty⟩ [a, b, c]

/-- A parameter after a comma. -/
inductive CommaParam : Param → List Token → Prop
  | mk {c : Token} {p : Param} {u : List Token} :
      c.kind = .comma → ParamPhrase p u → CommaParam p (c :: u)

/-- Parameters in parentheses, separated by commas. -/
inductive ParamList : List Param → List Token → Prop
  | empty {o c : Token} : o.kind = .openParen → c.kind = .closeParen → ParamList [] [o, c]
  | cons {o c : Token} {p : Param} {ps : List Param} {u v : List Token} :
      o.kind = .openParen → ParamPhrase p u → Star CommaParam ps v → c.kind = .closeParen →
        ParamList (p :: ps) (o :: u ++ v ++ [c])

/-- The value of a statement: an expression read from level one, no taller than the limit. -/
def ValuePhrase (L : Limits) (e : Expr) (u : List Token) : Prop :=
  Derives L.depth .expr 1 e u ∧ e.height ≤ L.height

/-- A statement: a declaration with its initial value, or a return. -/
inductive StmtPhrase (L : Limits) : Stmt → List Token → Prop
  | decl {k a b c q sc : Token} {x ty : String} {e : Expr} {u : List Token} :
      k.kind = .kwVar → NameToken a x → b.kind = .colon → NameToken c ty → q.kind = .equals →
        ValuePhrase L e u → sc.kind = .semicolon →
          StmtPhrase L (.decl x ty (some e)) (k :: a :: b :: c :: q :: u ++ [sc])
  | ret {k sc : Token} {e : Expr} {u : List Token} :
      k.kind = .kwReturn → ValuePhrase L e u → sc.kind = .semicolon →
        StmtPhrase L (.ret e) (k :: u ++ [sc])

/-- A body: statements in braces. -/
inductive BlockPhrase (L : Limits) : List Stmt → List Token → Prop
  | mk {o c : Token} {sts : List Stmt} {u : List Token} :
      o.kind = .openBrace → Star (StmtPhrase L) sts u → c.kind = .closeBrace →
        BlockPhrase L sts (o :: u ++ [c])

/-- A function definition. -/
inductive FunctionPhrase (L : Limits) : FunctionDef → List Token → Prop
  | mk {k a c r : Token} {x ty : String} {ps : List Param} {sts : List Stmt} {u v : List Token} :
      k.kind = .kwFunction → NameToken a x → ParamList ps u → c.kind = .colon → NameToken r ty →
        BlockPhrase L sts v → FunctionPhrase L ⟨x, ps, ty, sts⟩ (k :: a :: u ++ c :: r :: v)

/-- A program: its function definitions one after another. -/
def ProgramPhrase (L : Limits) (t : Program) (u : List Token) : Prop :=
  Star (FunctionPhrase L) t.functions u

/-- A sentence of the grammar: a program within some limits, followed by an end token. -/
def Sentence (ts : List Token) : Prop :=
  ∃ L t u eof, ProgramPhrase L t u ∧ eof.kind = .endOfFile ∧ ts = u ++ [eof]

/-! ## Shape of derivations -/

namespace Sym

/-- Is the symbol a tail? -/
def isTail : Sym → Bool
  | .addTail _ | .mulTail _ => true
  | _ => false

/-- The tree a tail starts from. -/
def left? : Sym → Option Expr
  | .addTail left | .mulTail left => some left
  | _ => none

end Sym

namespace Derives

variable {lim n : Nat} {g : Sym} {e : Expr} {u : List Token}

theorem level_le (h : Derives lim g n e u) (hg : g.isTail = false) : n ≤ lim := by
  induction h with
  | number hn _ => exact hn
  | name hn _ => exact hn
  | paren _ _ _ ih => have := ih rfl; omega
  | term _ _ ih _ => exact ih rfl
  | expr _ _ ih _ => exact ih rfl
  | mulNil | mulCons | addNil | addCons => simp [Sym.isTail] at hg

theorem height_left_le (h : Derives lim g n e u) : ∀ left ∈ g.left?, left.height ≤ e.height := by
  induction h with
  | number | name | paren | term | expr => simp [Sym.left?]
  | mulNil | addNil => simp [Sym.left?]
  | @mulCons n left r e op t u v _ _ _ _ ih | @addCons n left r e op t u v _ _ _ _ ih =>
    intro l hl
    simp only [Sym.left?, Option.mem_def, Option.some.injEq] at hl
    subst hl
    have := ih (.bin op left r) rfl
    simp only [Expr.height_bin] at this
    omega

theorem mono {lim' : Nat} (hl : lim ≤ lim') (h : Derives lim g n e u) : Derives lim' g n e u := by
  induction h with
  | number hn ht => exact .number (by omega) ht
  | name hn ht => exact .name (by omega) ht
  | paren ho _ hc ih => exact .paren ho ih hc
  | term _ _ ih1 ih2 => exact .term ih1 ih2
  | expr _ _ ih1 ih2 => exact .expr ih1 ih2
  | mulNil => exact .mulNil
  | mulCons hop _ _ ih1 ih2 => exact .mulCons hop ih1 ih2
  | addNil => exact .addNil
  | addCons hop _ _ ih1 ih2 => exact .addCons hop ih1 ih2

theorem shift (k : Nat) (h : Derives lim g n e u) : Derives (lim + k) g (n + k) e u := by
  induction h with
  | number hn ht => exact .number (by omega) ht
  | name hn ht => exact .name (by omega) ht
  | paren ho _ hc ih => exact .paren ho (by rwa [Nat.add_right_comm] at ih) hc
  | term _ _ ih1 ih2 => exact .term ih1 ih2
  | expr _ _ ih1 ih2 => exact .expr ih1 ih2
  | mulNil => exact .mulNil
  | mulCons hop _ _ ih1 ih2 => exact .mulCons hop (by rwa [Nat.add_right_comm] at ih1) ih2
  | addNil => exact .addNil
  | addCons hop _ _ ih1 ih2 => exact .addCons hop (by rwa [Nat.add_right_comm] at ih1) ih2

end Derives

/-! ## Larger limits -/

/-- Limits within others: no deeper and no taller. -/
instance : LE Limits := ⟨fun L L' => L.depth ≤ L'.depth ∧ L.height ≤ L'.height⟩

/-- The least limits within which both are. -/
def Limits.join (L L' : Limits) : Limits := ⟨max L.depth L'.depth, max L.height L'.height⟩

theorem Limits.le_join_left (L L' : Limits) : L ≤ L.join L' :=
  ⟨Nat.le_max_left _ _, Nat.le_max_left _ _⟩

theorem Limits.le_join_right (L L' : Limits) : L' ≤ L.join L' :=
  ⟨Nat.le_max_right _ _, Nat.le_max_right _ _⟩

theorem Star.mono {α : Type} {P Q : α → List Token → Prop} (hPQ : ∀ a u, P a u → Q a u)
    {as : List α} {u : List Token} (h : Star P as u) : Star Q as u := by
  induction h with
  | nil => exact .nil
  | cons ha _ ih => exact .cons (hPQ _ _ ha) ih

section
variable {L L' : Limits} (hL : L ≤ L') {u : List Token}
include hL

theorem ValuePhrase.mono {e : Expr} (h : ValuePhrase L e u) : ValuePhrase L' e u :=
  ⟨h.1.mono hL.1, Nat.le_trans h.2 hL.2⟩

theorem StmtPhrase.mono {st : Stmt} (h : StmtPhrase L st u) : StmtPhrase L' st u := by
  cases h with
  | decl hk ha hb hc hq hv hsc => exact .decl hk ha hb hc hq (hv.mono hL) hsc
  | ret hk hv hsc => exact .ret hk (hv.mono hL) hsc

theorem BlockPhrase.mono {sts : List Stmt} (h : BlockPhrase L sts u) : BlockPhrase L' sts u := by
  cases h with
  | mk ho hs hc => exact .mk ho (hs.mono fun _ _ h => h.mono hL) hc

theorem FunctionPhrase.mono {f : FunctionDef} (h : FunctionPhrase L f u) :
    FunctionPhrase L' f u := by
  cases h with
  | mk hk ha hu hc hr hb => exact .mk hk ha hu hc hr (hb.mono hL)

end

/-! ## Building derivations -/

namespace Derives

variable {lim n : Nat}

theorem term_of_factor {e : Expr} {u : List Token} (h : Derives lim .factor n e u) :
    Derives lim .term n e u := by
  simpa using Derives.term h .mulNil

theorem expr_of_term {e : Expr} {u : List Token} (h : Derives lim .term n e u) :
    Derives lim .expr n e u := by
  simpa using Derives.expr h .addNil

theorem expr_add {a b : Expr} {op : Op} {t : Token} {u v : List Token}
    (ha : Derives lim .term n a u) (hop : addOp? t.kind = some op)
    (hb : Derives lim .term (n + 1) b v) : Derives lim .expr n (.bin op a b) (u ++ t :: v) := by
  simpa using Derives.expr ha (.addCons hop hb .addNil)

theorem expr_mul {a b : Expr} {op : Op} {t : Token} {u v : List Token}
    (ha : Derives lim .factor n a u) (hop : mulOp? t.kind = some op)
    (hb : Derives lim .factor (n + 1) b v) : Derives lim .expr n (.bin op a b) (u ++ t :: v) := by
  simpa using expr_of_term (Derives.term ha (.mulCons hop hb .mulNil))

end Derives

theorem addTail_head {lim n : Nat} {left e : Expr} {t : Token} {u : List Token}
    (h : Derives lim (.addTail left) n e (t :: u)) : ∃ op, addOp? t.kind = some op := by
  cases h with
  | addCons hop _ _ => exact ⟨_, hop⟩

theorem StmtPhrase.eq_cons {L : Limits} {st : Stmt} {u : List Token} (h : StmtPhrase L st u) :
    ∃ k w, u = k :: w ∧ (k.kind = .kwVar ∨ k.kind = .kwReturn) := by
  cases h with
  | decl hk => exact ⟨_, _, rfl, .inl hk⟩
  | ret hk => exact ⟨_, _, rfl, .inr hk⟩

theorem FunctionPhrase.eq_cons {L : Limits} {f : FunctionDef} {u : List Token}
    (h : FunctionPhrase L f u) : ∃ k w, u = k :: w ∧ k.kind = .kwFunction := by
  cases h with
  | mk hk => exact ⟨_, _, rfl, hk⟩

end LangFront.Grammar
