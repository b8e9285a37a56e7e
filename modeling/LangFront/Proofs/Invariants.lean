import LangFront.Proofs.Lexing
import LangFront.Syntax.Node
/-!
# What the grammar derives, node by node

A derivation of the grammar yields a program whose declarations all have an initial value and
whose statement values are no taller than the limits' bound (`ProgramPhrase.bounded`). When its
tokens are ones the scanner makes, every name of the program is a name token and every literal
is non-negative, so the program is well formed (`ProgramPhrase.wellFormed`).

The same facts hold of every node of the program's walk: `Node.Bounded` and `Node.Spelled` say
what a single node satisfies, and `Program.preorder_bounded` and `Program.preorder_spelled`
carry them from the statements to every node below.
-/

namespace LangFront

open Token Grammar Parse

/-- A statement as every reading of the grammar yields it: a declaration has its initial value,
and the value is no taller than the parser's bound. -/
def Stmt.Bounded : Stmt → Prop
  | .decl _ _ (some e) => e.height ≤ maxHeight
  | .decl _ _ none => False
  | .ret e => e.height ≤ maxHeight

namespace Grammar

/-! ## Derivations over scanned tokens -/

section
variable {u : List Token}

/-- The expression derived from scanned tokens is well formed, given that the tree a tail starts
from is. -/
theorem Derives.wellFormed {lim n : Nat} {g : Sym} {e : Expr} (h : Derives lim g n e u)
    (hu : ∀ t ∈ u, Lexical t) (hl : ∀ left ∈ g.left?, left.WellFormed) : e.WellFormed := by
  induction h with
  | number _ ht => exact (hu _ List.mem_cons_self).2 _ ht
  | name _ ht => exact (hu _ List.mem_cons_self).1 _ ht
  | paren _ _ _ ih =>
    exact ih (fun t ht => hu t (by simp [ht])) (by simp [Sym.left?])
  | term _ _ ihf ihe | expr _ _ ihf ihe =>
    have hf := ihf (fun t ht => hu t (List.mem_append_left _ ht)) (by simp [Sym.left?])
    exact ihe (fun t ht => hu t (List.mem_append_right _ ht)) fun left hleft => by
      cases hleft
      exact hf
  | mulNil | addNil => exact hl _ rfl
  | mulCons _ _ _ ihr ihe | addCons _ _ _ ihr ihe =>
    have hr := ihr (fun t ht => hu t (by simp [ht])) (by simp [Sym.left?])
    exact ihe (fun t ht => hu t (by simp [ht])) fun left hleft => by
      cases hleft
      exact ⟨hl _ rfl, hr⟩

theorem ValuePhrase.readable {e : Expr} (h : ValuePhrase Limits.parser e u)
    (hu : ∀ t ∈ u, Lexical t) : e.Readable :=
  ⟨h.1.wellFormed hu (by simp [Sym.left?]), h.2⟩

theorem StmtPhrase.wellFormed {st : Stmt} (h : StmtPhrase Limits.parser st u)
    (hu : ∀ t ∈ u, Lexical t) : st.WellFormed := by
  cases h with
  | decl _ ha _ hc _ hv _ =>
    exact ⟨(hu _ (by simp)).1 _ ha, (hu _ (by simp)).1 _ hc,
      ValuePhrase.readable hv fun t ht => hu t (by simp [ht])⟩
  | ret _ hv _ => exact ValuePhrase.readable hv fun t ht => hu t (by simp [ht])

theorem Star.forall_mem {α : Type} {P : α → List Token → Prop} {Q : α → Prop}
    {R : Token → Prop} (hP : ∀ a u, P a u → (∀ t ∈ u, R t) → Q a) {as : List α}
    (h : Star P as u) (hu : ∀ t ∈ u, R t) : ∀ a ∈ as, Q a := by
  induction h with
  | nil => simp
  | cons ha _ ih =>
    intro a hmem
    rcases List.mem_cons.1 hmem with rfl | hmem
    · exact hP _ _ ha fun t ht => hu t (List.mem_append_left _ ht)
    · exact ih (fun t ht => hu t (List.mem_append_right _ ht)) a hmem

theorem ParamPhrase.isName {p : Param} (h : ParamPhrase p u) (hu : ∀ t ∈ u, Lexical t) :
    IsName p.name ∧ IsName p.type := by
  cases h with
  | mk ha _ hc => exact ⟨(hu _ (by simp)).1 _ ha, (hu _ (by simp)).1 _ hc⟩

theorem ParamList.isName {ps : List Param} (h : ParamList ps u) (hu : ∀ t ∈ u, Lexical t) :
    ∀ p ∈ ps, IsName p.name ∧ IsName p.type := by
  cases h with
  | empty => simp
  | cons _ hp hs _ =>
    intro p hmem
    rcases List.mem_cons.1 hmem with rfl | hmem
    · exact hp.isName fun t ht => hu t (by simp [ht])
    · have hcomma : ∀ q v, CommaParam q v → (∀ t ∈ v, Lexical t) →
          IsName q.name ∧ IsName q.type := by
        intro q v hq hv
        cases hq with
        | mk _ hq => exact hq.isName fun t ht => hv t (List.mem_cons_of_mem _ ht)
      exact Star.forall_mem hcomma hs (fun t ht => hu t (by simp [ht])) p hmem

theorem FunctionPhrase.wellFormed {f : FunctionDef} (h : FunctionPhrase Limits.parser f u)
    (hu : ∀ t ∈ u, Lexical t) : f.WellFormed := by
  cases h with
  | mk _ ha hps _ hr hb =>
    cases hb with
    | mk _ hsts _ =>
      exact ⟨(hu _ (by simp)).1 _ ha, hps.isName fun t ht => hu t (by simp [ht]),
        (hu _ (by simp)).1 _ hr,
        Star.forall_mem (fun st v (h : StmtPhrase Limits.parser st v) => h.wellFormed) hsts
          fun t ht => hu t (by simp [ht])⟩

/-- A program derived from scanned tokens is well formed. -/
theorem ProgramPhrase.wellFormed {t : Program} (h : ProgramPhrase Limits.parser t u)
    (hu : ∀ t ∈ u, Lexical t) : t.WellFormed :=
  Star.forall_mem (fun f v (h : FunctionPhrase Limits.parser f v) => h.wellFormed) h hu

end

/-! ## Derivations over any tokens -/

section
variable {u : List Token}

theorem StmtPhrase.bounded {st : Stmt} (h : StmtPhrase Limits.parser st u) : st.Bounded := by
  cases h with
  | decl _ _ _ _ _ hv _ => exact hv.2
  | ret _ hv _ => exact hv.2

theorem FunctionPhrase.bounded {f : FunctionDef} (h : FunctionPhrase Limits.parser f u) :
    ∀ st ∈ f.body, st.Bounded := by
  cases h with
  | mk _ _ _ _ _ hb =>
    cases hb with
    | mk _ hsts _ =>
      exact Star.forall_mem (fun st v (h : StmtPhrase Limits.parser st v) _ => h.bounded) hsts
        fun _ _ => trivial

theorem ProgramPhrase.bounded {t : Program} (h : ProgramPhrase Limits.parser t u) :
    ∀ f ∈ t.functions, ∀ st ∈ f.body, st.Bounded :=
  Star.forall_mem (fun f v (h : FunctionPhrase Limits.parser f v) _ => h.bounded) h
    fun _ _ => trivial

end

end Grammar

/-! ## Every node of the walk -/

/-- What a node of a program read from tokens satisfies: a declaration has its initial value
and no expression is taller than the parser's bound. -/
def Node.Bounded : Node → Prop
  | .stmt st => st.Bounded
  | .expr e => e.height ≤ maxHeight
  | _ => True

/-- What a node of a program read from text satisfies as well: a name is a name token, and a
literal lies within the literals the scanner reads. -/
def Node.Spelled : Node → Prop
  | .name x => IsName x
  | .expr (.var x) => IsName x
  | .expr (.lit n) => 0 ≤ n.toInt ∧ n.toInt ≤ maxLiteral
  | _ => True

theorem Expr.mem_preorder {e : Expr} {n : Node} (h : n ∈ e.preorder) :
    ∃ e', n = .expr e' ∧ e'.height ≤ e.height ∧ (e.WellFormed → e'.WellFormed) := by
  induction e with
  | lit v => exact ⟨_, List.mem_singleton.1 h, Nat.le_refl _, id⟩
  | var x => exact ⟨_, List.mem_singleton.1 h, Nat.le_refl _, id⟩
  | bin op l r ihl ihr =>
    simp only [Expr.preorder, List.mem_cons, List.mem_append] at h
    have hl := Nat.le_max_left l.height r.height
    have hr := Nat.le_max_right l.height r.height
    rcases h with rfl | h | h
    · exact ⟨_, rfl, Nat.le_refl _, id⟩
    · obtain ⟨e', rfl, hh, hw⟩ := ihl h
      exact ⟨e', rfl, by simp only [Expr.height_bin]; omega, fun he => hw he.1⟩
    · obtain ⟨e', rfl, hh, hw⟩ := ihr h
      exact ⟨e', rfl, by simp only [Expr.height_bin]; omega, fun he => hw he.2⟩

theorem Expr.spelled_of_wellFormed {e : Expr} (h : e.WellFormed) : (Node.expr e).Spelled := by
  cases e with
  | lit v =>
    have hv := Int32.toInt_lt v
    refine ⟨h, ?_⟩
    unfold maxLiteral
    omega
  | var x => exact h
  | bin op l r => trivial

theorem Stmt.preorder_bounded {st : Stmt} (h : st.Bounded) : ∀ n ∈ st.preorder, n.Bounded := by
  have hexpr : ∀ e : Expr, e.height ≤ maxHeight → ∀ n ∈ e.preorder, n.Bounded := by
    intro e he n hn
    obtain ⟨e', rfl, hh, -⟩ := Expr.mem_preorder hn
    exact Nat.le_trans hh he
  intro n hn
  cases st with
  | decl x ty init =>
    cases init with
    | none => exact h.elim
    | some e =>
      simp only [Stmt.preorder, List.mem_cons] at hn
      rcases hn with rfl | rfl | rfl | hn
      · exact h
      · trivial
      · trivial
      · exact hexpr e h n hn
  | ret e =>
    rcases List.mem_cons.1 hn with rfl | hn
    · exact h
    · exact hexpr e h n hn

theorem Stmt.preorder_spelled {st : Stmt} (h : st.WellFormed) : ∀ n ∈ st.preorder, n.Spelled := by
  have hexpr : ∀ e : Expr, e.WellFormed → ∀ n ∈ e.preorder, n.Spelled := by
    intro e he n hn
    obtain ⟨e', rfl, -, hw⟩ := Expr.mem_preorder hn
    exact Expr.spelled_of_wellFormed (hw he)
  intro n hn
  cases st with
  | decl x ty init =>
    cases init with
    | none => exact h.elim
    | some e =>
      simp only [Stmt.preorder, List.mem_cons] at hn
      rcases hn with rfl | rfl | rfl | hn
      · trivial
      · exact h.1
      · exact h.2.1
      · exact hexpr e h.2.2.1 n hn
  | ret e =>
    rcases List.mem_cons.1 hn with rfl | hn
    · trivial
    · exact hexpr e h.1 n hn

section
variable {P : Node → Prop}

theorem FunctionDef.forall_mem_preorder {f : FunctionDef} (hf : P (.function f))
    (hb : P (.block f.body)) (hname : P (.name f.name)) (hresult : P (.name f.result))
    (hps : ∀ p ∈ f.params, P (.param p) ∧ P (.name p.name) ∧ P (.name p.type))
    (hsts : ∀ st ∈ f.body, ∀ n ∈ st.preorder, P n) : ∀ n ∈ f.preorder, P n := by
  intro n hn
  simp only [FunctionDef.preorder, List.mem_cons, List.mem_append, List.mem_flatMap,
    Param.preorder, List.not_mem_nil, or_false] at hn
  rcases hn with ((rfl | rfl | ⟨p, hp, hn⟩) | rfl | rfl) | ⟨st, hst, hn⟩
  · exact hf
  · exact hname
  · rcases hn with rfl | rfl | rfl
    · exact (hps p hp).1
    · exact (hps p hp).2.1
    · exact (hps p hp).2.2
  · exact hresult
  · exact hb
  · exact hsts st hst n hn

theorem Program.forall_mem_preorder {t : Program} (ht : P (.program t))
    (hfs : ∀ f ∈ t.functions, ∀ n ∈ f.preorder, P n) : ∀ n ∈ t.preorder, P n := by
  intro n hn
  simp only [Program.preorder, List.mem_cons, List.mem_flatMap] at hn
  rcases hn with rfl | ⟨f, hf, hn⟩
  · exact ht
  · exact hfs f hf n hn

end

/-- Every node of a program whose statements are bounded is bounded. -/
theorem Program.preorder_bounded {t : Program} (h : ∀ f ∈ t.functions, ∀ st ∈ f.body, st.Bounded) :
    ∀ n ∈ t.preorder, n.Bounded :=
  Program.forall_mem_preorder trivial fun f hf =>
    FunctionDef.forall_mem_preorder trivial trivial trivial trivial
      (fun _ _ => ⟨trivial, trivial, trivial⟩)
      fun st hst => Stmt.preorder_bounded (h f hf st hst)

/-- Every node of a well-formed program is spelled as the scanner reads it. -/
theorem Program.preorder_spelled {t : Program} (h : t.WellFormed) : ∀ n ∈ t.preorder, n.Spelled :=
  Program.forall_mem_preorder trivial fun f hf =>
    have hw := h f hf
    FunctionDef.forall_mem_preorder trivial trivial hw.1 hw.2.2.1
      (fun p hp => ⟨trivial, hw.2.1 p hp⟩)
      fun st hst => Stmt.preorder_spelled (hw.2.2.2 st hst)

end LangFront
