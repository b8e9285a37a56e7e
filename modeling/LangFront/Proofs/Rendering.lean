import LangFront.Proofs.Lexing
import LangFront.Proofs.ExprParse
import LangFront.Layout.Render
/-!
# The text of a well-formed program scans to a derivation of it

Rendering a well-formed program and scanning the text gives tokens that the grammar derives
back to the program, within the parser's bounds (`Program.scan_render`). The proof follows the
rendering: names, literals, keywords and symbols scan as single tokens, the blanks between them
vanish, and each phrase of the text scans to a phrase of the grammar.

Every operand that is an operator application is written in parentheses. So an expression of
height `h` read from level `n` opens readings up to level `n + max 1 (2 * h) - 1`: a
parenthesised operand opens one more, a right operand one more again, and the deepest right
operand of a tree is a leaf, which opens nothing. Read as a statement's value, from level one,
this is at most `2 * 256 = 512`, one below the number of readings the parser allows.
-/

namespace LangFront

open Token Grammar Parse Text

theorem Op.symbol_scans (op : Op) :
    ∃ c k, op.symbol.toList = [c] ∧ singleSymbol? c = some k ∧ (∀ d, pairSymbol? c d = none) ∧
      Op.ofKind? k = some op := by
  cases op with
  | add => exact ⟨'+', .plus, rfl, rfl, fun d => by simp [pairSymbol?], rfl⟩
  | sub => exact ⟨'-', .minus, rfl, rfl, fun d => by simp [pairSymbol?], rfl⟩
  | mul => exact ⟨'*', .asterisk, rfl, rfl, fun d => by simp [pairSymbol?], rfl⟩
  | div => exact ⟨'/', .slash, rfl, rfl, fun d => by simp [pairSymbol?], rfl⟩

/-! ## Expressions -/

/-- The text of an operand: in parentheses when it is an operator application. -/
def Expr.operandText (e : Expr) : String :=
  if e.isBin then "(" ++ e.render ++ ")" else e.render

theorem Expr.render_bin (op : Op) (a b : Expr) :
    (Expr.bin op a b).render = a.operandText ++ " " ++ op.symbol ++ " " ++ b.operandText := rfl

/-- The rendering of `e` scans, from every level its height allows, to tokens that derive it. -/
def Expr.ScansAt (lim : Nat) (e : Expr) : Prop :=
  ∀ n l, n + 2 * e.height ≤ lim →
    ∃ ts, ScansTo Boundary l e.render.toList ts ∧ Derives lim .expr n e ts

/-- The rendering of `e` scans, from every level `n` with `n + max 1 (2 * e.height) ≤ lim + 1`,
to tokens that derive it: read from level `n`, no point of it lies deeper than
`n + max 1 (2 * e.height) - 1`. -/
def Expr.ScansWithin (lim : Nat) (e : Expr) : Prop :=
  ∀ n l, n + max 1 (2 * e.height) ≤ lim + 1 →
    ∃ ts, ScansTo Boundary l e.render.toList ts ∧ Derives lim .expr n e ts

theorem Expr.scansTo_operandText {lim : Nat} {x : Expr} (hx : x.WellFormed)
    (ih : x.ScansWithin lim) (m : Nat) (l : Location) (hm : m + 2 * x.height ≤ lim) :
    ∃ ts, ScansTo Boundary l x.operandText.toList ts ∧ Derives lim .factor m x ts := by
  cases x with
  | lit v => exact ⟨_, ScansTo.number hx, .number (by omega) ⟨rfl, rfl⟩⟩
  | var y => exact ⟨_, ScansTo.name hx, .name (by omega) ⟨rfl, rfl⟩⟩
  | bin op a b =>
    obtain ⟨ts, hs, hd⟩ := ih (m + 1) (l.next '(') (by simp only [Expr.height_bin] at hm ⊢; omega)
    have htext : (Expr.bin op a b).operandText.toList =
        '(' :: ((Expr.bin op a b).render.toList ++ [')']) := by
      simp [Expr.operandText, Expr.isBin, String.toList_append]
    refine ⟨(⟨.openParen, none, l⟩ :: ts) ++ [⟨.closeParen, none,
      (l.next '(').advance (Expr.bin op a b).render.toList⟩], ?_, .paren rfl hd rfl⟩
    rw [htext]
    exact ScansTo.symbol rfl (fun d => by simp [pairSymbol?])
      (hs.append (ScansTo.symbol rfl (fun d => by simp [pairSymbol?]) (ScansTo.nil _))
        fun _ _ => Boundary.cons (by decide) (by decide))

/-- The rendering of a well-formed expression scans to a derivation of it that goes at most
`max 1 (2 * h) - 1` levels below the level it is read from. -/
theorem Expr.scansWithin (lim : Nat) {e : Expr} (he : e.WellFormed) : e.ScansWithin lim := by
  induction e with
  | lit v =>
    intro n l hn
    exact ⟨_, ScansTo.number he,
      (Derives.number (by simp at hn; omega) ⟨rfl, rfl⟩).term_of_factor.expr_of_term⟩
  | var y =>
    intro n l hn
    exact ⟨_, ScansTo.name he,
      (Derives.name (by simp at hn; omega) ⟨rfl, rfl⟩).term_of_factor.expr_of_term⟩
  | bin op a b iha ihb =>
    intro n l hn
    obtain ⟨c, k, hsym, hk, hp, hop⟩ := op.symbol_scans
    have ha := Nat.le_max_left a.height b.height
    have hb := Nat.le_max_right a.height b.height
    simp only [Expr.height_bin] at hn
    -- the left operand at the level of the expression, the right one a level deeper; each
    -- level of the tree costs two levels of reading only through a parenthesised operand
    obtain ⟨tsa, hsa, hda⟩ := Expr.scansTo_operandText he.1 (iha he.1) n l (by omega)
    obtain ⟨tsb, hsb, hdb⟩ := Expr.scansTo_operandText he.2 (ihb he.2) (n + 1)
      ((((l.advance a.operandText.toList).next ' ').next c).next ' ') (by omega)
    have htext : (Expr.bin op a b).render.toList =
        a.operandText.toList ++ ' ' :: c :: ' ' :: b.operandText.toList := by
      simp [Expr.render_bin, String.toList_append, hsym]
    refine ⟨tsa ++ ⟨k, none, (l.advance a.operandText.toList).next ' '⟩ :: tsb, ?_, ?_⟩
    · rw [htext]
      exact hsa.append (ScansTo.blank rfl (ScansTo.symbol hk hp (ScansTo.blank rfl hsb)))
        fun _ _ => Boundary.cons (by decide) (by decide)
    · rcases precedence_eq_one_or_two op with hprec | hprec
      · exact Derives.expr_add hda.term_of_factor (addOp?_iff.2 ⟨hop, hprec⟩) hdb.term_of_factor
      · exact Derives.expr_mul hda (mulOp?_iff.2 ⟨hop, hprec⟩) hdb

theorem Expr.scansAt (lim : Nat) {e : Expr} (he : e.WellFormed) : e.ScansAt lim :=
  fun n l hn => Expr.scansWithin lim he n l (by omega)

/-! ## Statements -/

theorem Expr.scansTo_value {e : Expr} (he : e.Readable) (l : Location) :
    ∃ ts, ScansTo (fun _ => True) l (e.render.toList ++ [';', '\n'])
      (ts ++ [⟨.semicolon, none, l.advance e.render.toList⟩]) ∧ ValuePhrase Limits.parser e ts := by
  have hh : 1 + 2 * e.height ≤ maxOpen := by
    have := he.2
    unfold maxHeight at this
    unfold maxOpen
    omega
  obtain ⟨ts, hs, hd⟩ := Expr.scansAt maxOpen he.1 1 l hh
  exact ⟨ts, hs.append (ScansTo.symbol rfl (fun d => by simp [pairSymbol?])
    (ScansTo.blank rfl (ScansTo.nil _))) fun _ _ => Boundary.cons (by decide) (by decide),
    hd, he.2⟩

theorem Stmt.scansTo_line {st : Stmt} (hs : st.WellFormed) (w : Nat) (l : Location) :
    ∃ ts, ScansTo (fun _ => True) l
        (String.ofList (List.replicate w ' ') ++ st.render ++ "\n").toList ts ∧
      StmtPhrase Limits.parser st ts := by
  cases st with
  | decl x ty init =>
    cases init with
    | none => exact hs.elim
    | some e =>
      obtain ⟨hx, hty, he⟩ := hs
      have hpre : ScansTo (fun _ => True) l (List.replicate w ' ' ++
          (['v', 'a', 'r'] ++ ' ' :: (x.toList ++ ':' :: ' ' :: (ty.toList ++ [' ', '=', ' ']))))
          _ :=
        ScansTo.spaces w (ScansTo.append (ScansTo.word (by decide) (List.all_eq_true.1 rfl))
          (ScansTo.blank rfl (ScansTo.append (ScansTo.name hx)
            (ScansTo.symbol rfl (fun d => by simp [pairSymbol?]) (ScansTo.blank rfl
              (ScansTo.append (ScansTo.name hty) (ScansTo.blank rfl (ScansTo.symbol_cons rfl rfl
                (ScansTo.blank rfl (ScansTo.nil _))))
                fun _ _ => Boundary.cons (by decide) (by decide))))
            fun _ _ => Boundary.cons (by decide) (by decide)))
          fun _ _ => Boundary.cons (by decide) (by decide))
      obtain ⟨ts, hv, hp⟩ := Expr.scansTo_value he (l.advance (List.replicate w ' ' ++
          (['v', 'a', 'r'] ++ ' ' :: (x.toList ++ ':' :: ' ' :: (ty.toList ++ [' ', '=', ' '])))))
      have htext : (String.ofList (List.replicate w ' ') ++ (Stmt.decl x ty (some e)).render ++
          "\n").toList = List.replicate w ' ' ++ (['v', 'a', 'r'] ++ ' ' :: (x.toList ++
            ':' :: ' ' :: (ty.toList ++ [' ', '=', ' ']))) ++ (e.render.toList ++ [';', '\n']) := by
        simp [Stmt.render, String.toList_append]
      refine ⟨_, htext ▸ hpre.append hv fun _ _ => trivial, ?_⟩
      exact .decl rfl ⟨rfl, rfl⟩ rfl ⟨rfl, rfl⟩ rfl hp rfl
  | ret e =>
    have hpre : ScansTo (fun _ => True) l
        (List.replicate w ' ' ++ (['r', 'e', 't', 'u', 'r', 'n'] ++ [' '])) _ :=
      ScansTo.spaces w (ScansTo.append (ScansTo.word (by decide) (List.all_eq_true.1 rfl))
        (ScansTo.blank rfl (ScansTo.nil _)) fun _ _ => Boundary.cons (by decide) (by decide))
    obtain ⟨ts, hv, hp⟩ := Expr.scansTo_value hs
      (l.advance (List.replicate w ' ' ++ (['r', 'e', 't', 'u', 'r', 'n'] ++ [' '])))
    have htext : (String.ofList (List.replicate w ' ') ++ (Stmt.ret e).render ++ "\n").toList =
        List.replicate w ' ' ++ (['r', 'e', 't', 'u', 'r', 'n'] ++ [' ']) ++
          (e.render.toList ++ [';', '\n']) := by
      simp [Stmt.render, String.toList_append]
    refine ⟨_, htext ▸ hpre.append hv fun _ _ => trivial, ?_⟩
    exact .ret rfl hp rfl

theorem Stmt.scansTo_lines {sts : List Stmt} (hs : ∀ st ∈ sts, st.WellFormed) (w : Nat)
    (l : Location) :
    ∃ ts, ScansTo (fun _ => True) l (String.join (sts.map fun s =>
        String.ofList (List.replicate w ' ') ++ s.render ++ "\n")).toList ts ∧
      Star (StmtPhrase Limits.parser) sts ts := by
  induction sts generalizing l with
  | nil => exact ⟨[], by simpa using ScansTo.nil l, .nil⟩
  | cons st sts ih =>
    obtain ⟨ts₁, h₁, hp₁⟩ := Stmt.scansTo_line (hs st List.mem_cons_self) w l
    obtain ⟨ts₂, h₂, hp₂⟩ := ih (fun s h => hs s (List.mem_cons_of_mem st h))
      (l.advance (String.ofList (List.replicate w ' ') ++ st.render ++ "\n").toList)
    refine ⟨ts₁ ++ ts₂, ?_, .cons hp₁ hp₂⟩
    rw [List.map_cons, String.join_cons, String.toList_append]
    exact h₁.append h₂ fun _ _ => trivial

theorem Stmt.scansTo_block {sts : List Stmt} (hs : ∀ st ∈ sts, st.WellFormed) (w : Nat)
    (l : Location) :
    ∃ ts, ScansTo (fun _ => True) l ('{' :: '\n' :: ((String.join (sts.map fun s =>
        String.ofList (List.replicate w ' ') ++ s.render ++ "\n")).toList ++ ['}', '\n'])) ts ∧
      BlockPhrase Limits.parser sts ts := by
  obtain ⟨ts, h, hp⟩ := Stmt.scansTo_lines hs w ((l.next '{').next '\n')
  refine ⟨_, ScansTo.symbol rfl (fun d => by simp [pairSymbol?]) (ScansTo.blank rfl
    (h.append (ScansTo.symbol rfl (fun d => by simp [pairSymbol?]) (ScansTo.blank rfl
      (ScansTo.nil _))) fun _ _ => trivial)), ?_⟩
  exact .mk rfl hp rfl

/-! ## Parameters -/

theorem intercalate_cons_eq_join (s a : String) (as : List String) :
    s.intercalate (a :: as) = a ++ String.join (as.map (s ++ ·)) := by
  induction as generalizing a with
  | nil => simp
  | cons b bs ih =>
    rw [String.intercalate_cons_cons, ih b, List.map_cons, String.join_cons]
    simp [String.append_assoc]

theorem Param.scansTo {p : Param} (hp : IsName p.name ∧ IsName p.type) (l : Location) :
    ∃ u, ScansTo Boundary l (p.name ++ ": " ++ p.type).toList u ∧ ParamPhrase p u := by
  have htext : (p.name ++ ": " ++ p.type).toList =
      p.name.toList ++ ':' :: ' ' :: p.type.toList := by
    simp [String.toList_append]
  rw [htext]
  exact ⟨_, (ScansTo.name hp.1).append (ScansTo.symbol rfl (fun d => by simp [pairSymbol?])
    (ScansTo.blank rfl (ScansTo.name hp.2))) fun _ _ => Boundary.cons (by decide) (by decide),
    .mk ⟨rfl, rfl⟩ rfl ⟨rfl, rfl⟩⟩

theorem Param.toList_commas_cons (p : Param) (ps : List Param) :
    (String.join ((p :: ps).map fun p => ", " ++ (p.name ++ ": " ++ p.type))).toList =
      ',' :: ' ' :: ((p.name ++ ": " ++ p.type).toList ++
        (String.join (ps.map fun p => ", " ++ (p.name ++ ": " ++ p.type))).toList) := by
  simp [String.join_cons, String.toList_append]

theorem Param.boundary_commas (ps : List Param) {rest : List Char} (hr : Boundary rest) :
    Boundary ((String.join (ps.map fun p => ", " ++ (p.name ++ ": " ++ p.type))).toList ++
      rest) := by
  cases ps with
  | nil => simpa using hr
  | cons p ps =>
    rw [Param.toList_commas_cons]
    exact Boundary.cons (by decide) (by decide)

theorem Param.scansTo_commas {ps : List Param} (hps : ∀ p ∈ ps, IsName p.name ∧ IsName p.type)
    (l : Location) :
    ∃ v, ScansTo Boundary l
        (String.join (ps.map fun p => ", " ++ (p.name ++ ": " ++ p.type))).toList v ∧
      Star CommaParam ps v := by
  induction ps generalizing l with
  | nil => exact ⟨[], by simpa using ScansTo.nil l, .nil⟩
  | cons p ps ih =>
    obtain ⟨u, hu, hpp⟩ := Param.scansTo (hps p List.mem_cons_self) ((l.next ',').next ' ')
    obtain ⟨v, hv, hsv⟩ := ih (fun q hq => hps q (List.mem_cons_of_mem p hq))
      (((l.next ',').next ' ').advance (p.name ++ ": " ++ p.type).toList)
    rw [Param.toList_commas_cons]
    exact ⟨(⟨.comma, none, l⟩ :: u) ++ v, ScansTo.symbol rfl (fun d => by simp [pairSymbol?])
      (ScansTo.blank rfl (hu.append hv fun _ hr => Param.boundary_commas ps hr)),
      .cons (.mk rfl hpp) hsv⟩

theorem Param.scansTo_list {ps : List Param} (hps : ∀ p ∈ ps, IsName p.name ∧ IsName p.type)
    (l : Location) :
    ∃ u, ScansTo (fun _ => True) l
        ('(' :: ((", ".intercalate (ps.map fun p => p.name ++ ": " ++ p.type)).toList ++ [')']))
        u ∧ ParamList ps u := by
  cases ps with
  | nil =>
    exact ⟨_, ScansTo.symbol rfl (fun d => by simp [pairSymbol?])
      (ScansTo.symbol rfl (fun d => by simp [pairSymbol?]) (ScansTo.nil _)), .empty rfl rfl⟩
  | cons p ps =>
    obtain ⟨u, hu, hpp⟩ := Param.scansTo (hps p List.mem_cons_self) (l.next '(')
    obtain ⟨v, hv, hsv⟩ := Param.scansTo_commas (fun q hq => hps q (List.mem_cons_of_mem p hq))
      ((l.next '(').advance (p.name ++ ": " ++ p.type).toList)
    have htext : '(' :: ((", ".intercalate ((p :: ps).map fun p => p.name ++ ": " ++
        p.type)).toList ++ [')']) = ('(' :: (p.name ++ ": " ++ p.type).toList) ++
          (String.join (ps.map fun p => ", " ++ (p.name ++ ": " ++ p.type))).toList ++ [')'] := by
      rw [List.map_cons, intercalate_cons_eq_join, List.map_map, String.toList_append]
      simp only [List.cons_append, List.append_assoc]
      rfl
    rw [htext]
    exact ⟨_, ((ScansTo.symbol rfl (fun d => by simp [pairSymbol?]) hu).append hv
      fun _ hr => Param.boundary_commas ps hr).append
        (ScansTo.symbol rfl (fun d => by simp [pairSymbol?]) (ScansTo.nil _))
        fun _ _ => Boundary.cons (by decide) (by decide),
      .cons rfl hpp hsv rfl⟩

/-! ## Functions and programs -/

theorem FunctionDef.toList_render (w : Nat) (f : FunctionDef) :
    (f.render w).toList =
      ((['f', 'u', 'n', 'c', 't', 'i', 'o', 'n'] ++ ' ' :: f.name.toList) ++
        '(' :: ((", ".intercalate (f.params.map fun p => p.name ++ ": " ++ p.type)).toList ++
          [')'])) ++
      ((':' :: ' ' :: (f.result.toList ++ [' '])) ++
        '{' :: '\n' :: ((String.join (f.body.map fun s =>
          String.ofList (List.replicate w ' ') ++ s.render ++ "\n")).toList ++ ['}', '\n'])) := by
  -- unfolding, not rewriting with the equation lemma: the rewrite alone takes seconds
  unfold FunctionDef.render
  simp [String.toList_append]

theorem FunctionDef.scansTo_render {f : FunctionDef} (hf : f.WellFormed) (w : Nat)
    (l : Location) :
    ∃ ts, ScansTo (fun _ => True) l (f.render w).toList ts ∧ FunctionPhrase Limits.parser f ts := by
  obtain ⟨hx, hps, hty, hbody⟩ := hf
  have hpre : ScansTo Boundary l (['f', 'u', 'n', 'c', 't', 'i', 'o', 'n'] ++ ' ' :: f.name.toList)
      _ :=
    (ScansTo.word (by decide) (List.all_eq_true.1 rfl)).append
      (ScansTo.blank rfl (ScansTo.name hx))
      fun _ _ => Boundary.cons (by decide) (by decide)
  obtain ⟨u, hsu, hu⟩ := Param.scansTo_list hps
    (l.advance (['f', 'u', 'n', 'c', 't', 'i', 'o', 'n'] ++ ' ' :: f.name.toList))
  have hmid : ScansTo (fun _ => True) (l.advance ((['f', 'u', 'n', 'c', 't', 'i', 'o', 'n'] ++
      ' ' :: f.name.toList) ++ '(' :: ((", ".intercalate (f.params.map fun p =>
        p.name ++ ": " ++ p.type)).toList ++ [')'])))
      (':' :: ' ' :: (f.result.toList ++ [' '])) _ :=
    ScansTo.symbol rfl (fun d => by simp [pairSymbol?]) (ScansTo.blank rfl
      ((ScansTo.name hty).append (ScansTo.blank rfl (ScansTo.nil _))
        fun _ _ => Boundary.cons (by decide) (by decide)))
  obtain ⟨v, hsv, hv⟩ := Stmt.scansTo_block hbody w _
  rw [FunctionDef.toList_render]
  exact ⟨_, (hpre.append hsu fun _ _ => Boundary.cons (by decide) (by decide)).append
      (hmid.append hsv fun _ _ => trivial) fun _ _ => trivial,
    .mk rfl ⟨rfl, rfl⟩ hu rfl ⟨rfl, rfl⟩ hv⟩

/-- The functions of a program, an empty line between each two. -/
theorem FunctionDef.scansTo_renders {fs : List FunctionDef} (hfs : ∀ f ∈ fs, f.WellFormed)
    (w : Nat) (l : Location) :
    ∃ ts, ScansTo (fun _ => True) l ("\n".intercalate (fs.map (FunctionDef.render w))).toList ts ∧
      Star (FunctionPhrase Limits.parser) fs ts := by
  induction fs generalizing l with
  | nil => exact ⟨[], by simpa using ScansTo.nil l, .nil⟩
  | cons f fs ih =>
    obtain ⟨ts₁, h₁, hp₁⟩ := FunctionDef.scansTo_render (hfs f List.mem_cons_self) w l
    cases fs with
    | nil => exact ⟨ts₁ ++ [], by simpa using h₁, .cons hp₁ .nil⟩
    | cons g gs =>
      obtain ⟨ts₂, h₂, hp₂⟩ := ih (fun f hf => hfs f (List.mem_cons_of_mem _ hf))
        ((l.advance (f.render w).toList).next '\n')
      have hnl : ScansTo (fun _ => True) (l.advance (f.render w).toList) ('\n' ::
          ("\n".intercalate ((g :: gs).map (FunctionDef.render w))).toList) ts₂ :=
        ScansTo.blank rfl h₂
      refine ⟨ts₁ ++ ts₂, ?_, .cons hp₁ hp₂⟩
      rw [List.map_cons, List.map_cons, String.intercalate_cons_cons, ← List.map_cons,
        String.toList_append, String.toList_append, List.append_assoc]
      exact h₁.append hnl fun _ _ => trivial

/-- The text of a well-formed program scans to the tokens of a derivation of it, followed by the
end token. -/
theorem Program.scan_render {t : Program} (ht : t.WellFormed) (w : Nat) :
    ∃ ts l, scan (t.render w) = .ok (ts ++ [endOfFile l]) ∧ ProgramPhrase Limits.parser t ts := by
  obtain ⟨ts, h, hp⟩ := FunctionDef.scansTo_renders ht w Location.start
  exact ⟨ts, _, h.scanFrom_eq trivial, hp⟩

end LangFront
