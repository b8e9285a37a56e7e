import LangFront.Proofs.RoundTrip
import LangFront.Proofs.Walk
/-!
# Names and numbers keep their order

The leaves of a program are what its walk meets that spells a token: the names of functions,
parameters, types and variables, the variables of expressions by name and the literals by value
(`Node.leaf?`). Reading a program neither loses, duplicates nor reorders them: they are the
payloads of the name and number tokens before the first end token, in order
(`Program.leaves_eq_token_payloads`).

Precedence climbing builds trees that lean left within a layer and nest to the right across
layers, and parentheses leave no node, but a derivation keeps every operand at the place of its
token (`Grammar.Derives.leaves_preorder`): each fold puts the tree read so far before the operand read after it.
Every other phrase writes its names in the order its tree lists them.

The stack walk `Node.descendants` lists the nodes of the pre-order (`Node.walk_eq`), so the
walk meets the leaves in that order.
-/

namespace LangFront

open Token Grammar Parse

/-! ## Leaves of nodes and tokens -/

/-- The leaf a node is, if any: a name, a variable by its name, or a literal by its value. -/
def Node.leaf? : Node → Option Payload
  | .name x => some (.name x)
  | .expr (.var x) => some (.name x)
  | .expr (.lit n) => some (.number n)
  | _ => none

/-- The payload of a name or number token. -/
def Token.leaf? (t : Token) : Option Payload :=
  if t.kind = .identifier ∨ t.kind = .number then t.payload else none

theorem Token.leaf?_eq_none {t : Token} (h1 : t.kind ≠ .identifier) (h2 : t.kind ≠ .number) :
    t.leaf? = none := by
  simp [Token.leaf?, h1, h2]

theorem Token.leaf?_of_kind {t : Token} {k : Kind} (hk : t.kind = k)
    (h : k ≠ .identifier ∧ k ≠ .number) : t.leaf? = none :=
  Token.leaf?_eq_none (hk ▸ h.1) (hk ▸ h.2)

theorem Grammar.NameToken.leaf? {t : Token} {x : String} (h : NameToken t x) :
    t.leaf? = some (.name x) := by
  obtain ⟨hk, hx⟩ := h
  have hp : t.payload = some (.name x) := by
    unfold Token.name? at hx
    split at hx <;> simp_all
  simp [Token.leaf?, hk, hp]

theorem Grammar.NumberToken.leaf? {t : Token} {v : Int32} (h : NumberToken t v) :
    t.leaf? = some (.number v) := by
  obtain ⟨hk, hv⟩ := h
  have hp : t.payload = some (.number v) := by
    unfold Token.number? at hv
    split at hv <;> simp_all
  simp [Token.leaf?, hk, hp]

theorem Token.leaf?_of_ofKind {t : Token} {op : Op} (h : Op.ofKind? t.kind = some op) :
    t.leaf? = none := by
  apply Token.leaf?_eq_none <;> intro hk <;> simp [hk, Op.ofKind?] at h

/-- The leaves of the nodes of a list, in order. -/
def leaves (ns : List Node) : List Payload := ns.filterMap Node.leaf?

/-- The payloads of the name and number tokens of a list, in order. -/
def payloads (u : List Token) : List Payload := u.filterMap Token.leaf?

@[simp] theorem leaves_nil : leaves [] = [] := rfl

@[simp] theorem leaves_cons (n : Node) (ns : List Node) :
    leaves (n :: ns) = n.leaf?.toList ++ leaves ns := by
  cases h : n.leaf? <;> simp [leaves, h]

@[simp] theorem leaves_append (ns ms : List Node) : leaves (ns ++ ms) = leaves ns ++ leaves ms :=
  List.filterMap_append

@[simp] theorem payloads_nil : payloads [] = [] := rfl

@[simp] theorem payloads_cons (t : Token) (u : List Token) :
    payloads (t :: u) = t.leaf?.toList ++ payloads u := by
  cases h : t.leaf? <;> simp [payloads, h]

@[simp] theorem payloads_append (u v : List Token) : payloads (u ++ v) = payloads u ++ payloads v :=
  List.filterMap_append

@[simp] theorem Expr.leaves_lit (n : Int32) : leaves (Expr.lit n).preorder = [.number n] := rfl

@[simp] theorem Expr.leaves_var (x : String) : leaves (Expr.var x).preorder = [.name x] := rfl

@[simp] theorem Expr.leaves_bin (op : Op) (l r : Expr) :
    leaves (Expr.bin op l r).preorder = leaves l.preorder ++ leaves r.preorder := by
  simp [Expr.preorder, Node.leaf?]

/-! ## Leaves of derivations -/

/-- A derivation keeps every operand at the place of its token: the leaves of the tree it yields
are those of the tree a tail starts from, then the payloads of the tokens it reads. -/
theorem Grammar.Derives.leaves_preorder {lim n : Nat} {g : Sym} {e : Expr} {u : List Token}
    (h : Derives lim g n e u) :
    leaves e.preorder = (g.left?.map fun l => leaves l.preorder).getD [] ++ payloads u := by
  induction h with
  | number _ ht => simp [Sym.left?, ht.leaf?]
  | name _ ht => simp [Sym.left?, ht.leaf?]
  | paren ho _ hc ih =>
    simp only [Sym.left?, Option.map_none, Option.getD_none, List.nil_append] at ih ⊢
    simp [Token.leaf?_of_kind ho (by decide), Token.leaf?_of_kind hc (by decide), ih]
  | term _ _ ihf ihm | expr _ _ ihf ihm =>
    simp only [Sym.left?, Option.map_none, Option.map_some, Option.getD_none, Option.getD_some,
      List.nil_append] at ihf ihm ⊢
    rw [ihm, ihf, payloads_append]
  | mulNil | addNil => simp [Sym.left?]
  | mulCons hop _ _ ihr ihe =>
    simp only [Sym.left?, Option.map_none, Option.map_some, Option.getD_none, Option.getD_some,
      List.nil_append, Expr.leaves_bin] at ihr ihe ⊢
    simp [ihe, ihr, Token.leaf?_of_ofKind (mulOp?_iff.1 hop).1]
  | addCons hop _ _ ihr ihe =>
    simp only [Sym.left?, Option.map_none, Option.map_some, Option.getD_none, Option.getD_some,
      List.nil_append, Expr.leaves_bin] at ihr ihe ⊢
    simp [ihe, ihr, Token.leaf?_of_ofKind (addOp?_iff.1 hop).1]

theorem Grammar.Derives.leaves_preorder_expr {lim n : Nat} {e : Expr} {u : List Token}
    (h : Derives lim .expr n e u) : leaves e.preorder = payloads u := by
  simpa [Sym.left?] using h.leaves_preorder

/-! ## Leaves of programs -/

section
variable {L : Limits} {u : List Token}

theorem Grammar.ParamPhrase.leaves_preorder {p : Param} (h : ParamPhrase p u) :
    leaves p.preorder = payloads u := by
  cases h with
  | mk ha hb hc =>
    simp [Param.preorder, Node.leaf?, ha.leaf?, hc.leaf?, Token.leaf?_of_kind hb (by decide)]

theorem Grammar.CommaParam.leaves_preorder {p : Param} (h : CommaParam p u) :
    leaves p.preorder = payloads u := by
  cases h with
  | mk hc hp => simp [Token.leaf?_of_kind hc (by decide), hp.leaves_preorder]

theorem Grammar.Star.leaves_flatMap {α : Type} {P : α → List Token → Prop} {f : α → List Node}
    (hP : ∀ a u, P a u → leaves (f a) = payloads u) {as : List α} (h : Star P as u) :
    leaves (as.flatMap f) = payloads u := by
  induction h with
  | nil => rfl
  | cons ha _ ih => simp [hP _ _ ha, ih]

theorem Grammar.ParamList.leaves_flatMap {ps : List Param} (h : ParamList ps u) :
    leaves (ps.flatMap Param.preorder) = payloads u := by
  cases h with
  | empty ho hc => simp [Token.leaf?_of_kind ho (by decide), Token.leaf?_of_kind hc (by decide)]
  | cons ho hp hs hc =>
    simp [Token.leaf?_of_kind ho (by decide), Token.leaf?_of_kind hc (by decide),
      hp.leaves_preorder, hs.leaves_flatMap fun _ _ h => h.leaves_preorder]

theorem Grammar.StmtPhrase.leaves_preorder {st : Stmt} (h : StmtPhrase L st u) :
    leaves st.preorder = payloads u := by
  cases h with
  | decl hk ha hb hc hq hv hsc =>
    simp [Stmt.preorder, Node.leaf?, Token.leaf?_of_kind hk (by decide), ha.leaf?,
      Token.leaf?_of_kind hb (by decide), hc.leaf?, Token.leaf?_of_kind hq (by decide),
      hv.1.leaves_preorder_expr, Token.leaf?_of_kind hsc (by decide)]
  | ret hk hv hsc =>
    simp [Stmt.preorder, Node.leaf?, Token.leaf?_of_kind hk (by decide),
      hv.1.leaves_preorder_expr, Token.leaf?_of_kind hsc (by decide)]

theorem Grammar.BlockPhrase.leaves_flatMap {sts : List Stmt} (h : BlockPhrase L sts u) :
    leaves (sts.flatMap Stmt.preorder) = payloads u := by
  cases h with
  | mk ho hs hc =>
    simp [Token.leaf?_of_kind ho (by decide), Token.leaf?_of_kind hc (by decide),
      hs.leaves_flatMap fun _ _ h => h.leaves_preorder]

theorem Grammar.FunctionPhrase.leaves_preorder {f : FunctionDef} (h : FunctionPhrase L f u) :
    leaves f.preorder = payloads u := by
  cases h with
  | mk hk ha hu hc hr hb =>
    simp [FunctionDef.preorder, Node.leaf?, Token.leaf?_of_kind hk (by decide), ha.leaf?,
      hu.leaves_flatMap, Token.leaf?_of_kind hc (by decide), hr.leaf?, hb.leaves_flatMap]

theorem Grammar.ProgramPhrase.leaves_preorder {t : Program} (h : ProgramPhrase L t u) :
    leaves t.preorder = payloads u := by
  simp [Program.preorder, Node.leaf?, Star.leaves_flatMap (fun _ _ h => h.leaves_preorder) h]

end

/-- Reading a program neither loses, duplicates nor reorders names and numbers: the leaves its
walk meets are the payloads of the name and number tokens before the first end token, in order,
and for a program read from a text, those of the tokens the text scans to. -/
theorem Program.leaves_eq_token_payloads :
    (∀ ts t, Program.ofTokens ts = .ok t →
      leaves (Node.program t).descendants = payloads (ts.takeWhile fun t => !t.isEnd)) ∧
    ∀ s t, Program.ofSource s = .ok t →
      ∃ ts, scan s = .ok ts ∧ leaves (Node.program t).descendants = payloads ts := by
  refine ⟨fun ts t h => ?_, fun s t h => ?_⟩
  · rw [Node.descendants_eq_preorder]
    exact (Program.phrase_of_ofTokens h).leaves_preorder
  · obtain ⟨ts, hs, ht⟩ := Program.ofSource_eq_ok h
    obtain ⟨ts', l, rfl, hts'⟩ := scan_lexical hs
    have hp := (Program.phrase_of_ofTokens ht).leaves_preorder
    rw [takeWhile_scanned fun t ht => (hts' t ht).1] at hp
    refine ⟨_, hs, ?_⟩
    have hend : (endOfFile l).leaf? = none := @Token.leaf?_of_kind _ .endOfFile rfl (by decide)
    rw [Node.descendants_eq_preorder]
    simpa [Node.preorder, hend] using hp

/-- A payload on an operator token is no leaf, and nothing after the end token is read. -/
theorem leaves_eq_token_payloads_sample :
    Program.ofTokens [⟨.kwFunction, none, default⟩, .ofName "f" default, ⟨.openParen, none, default⟩,
        ⟨.closeParen, none, default⟩, ⟨.colon, none, default⟩, .ofName "int" default,
        ⟨.openBrace, none, default⟩, ⟨.kwReturn, none, default⟩, .ofNumber 1 default,
        ⟨.plus, some (.number 9), default⟩, .ofNumber 2 default, ⟨.semicolon, none, default⟩,
        ⟨.closeBrace, none, default⟩, .endOfFile default, .ofName "g" default] =
      .ok ⟨[⟨"f", [], "int", [.ret (.bin .add (.lit 1) (.lit 2))]⟩]⟩ ∧
    leaves (Node.program ⟨[⟨"f", [], "int", [.ret (.bin .add (.lit 1) (.lit 2))]⟩]⟩).descendants =
      [.name "f", .name "int", .number 1, .number 2] := by
  have h : Program.ofTokens [⟨.kwFunction, none, default⟩, .ofName "f" default,
      ⟨.openParen, none, default⟩, ⟨.closeParen, none, default⟩, ⟨.colon, none, default⟩,
      .ofName "int" default, ⟨.openBrace, none, default⟩, ⟨.kwReturn, none, default⟩,
      .ofNumber 1 default, ⟨.plus, some (.number 9), default⟩, .ofNumber 2 default,
      ⟨.semicolon, none, default⟩, ⟨.closeBrace, none, default⟩, .endOfFile default,
      .ofName "g" default] = .ok ⟨[⟨"f", [], "int", [.ret (.bin .add (.lit 1) (.lit 2))]⟩]⟩ := by
    cbv
  refine ⟨h, ?_⟩
  rw [Program.leaves_eq_token_payloads.1 _ _ h]
  rfl

end LangFront
