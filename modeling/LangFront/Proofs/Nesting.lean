import LangFront.Proofs.Climbing
/-!
# The parser's bounds are exact

Climbing refuses an expression of the grammar, with the reason `tooDeep`, exactly where the
expression leaves the parser's bounds (`expr_bounds_exact`): where some point of its derivation
lies inside more than `maxOpen` expression readings, or where its tree is taller than
`maxHeight`. Anywhere else it reads the expression whole.

The derivation counts open readings by its levels, as the parser counts them: the level of a
reading is a value it passes to the readings it calls, so a reading that returns, with a tree or
an error, leaves its caller's level as it was. The terms of a sum and groups in parentheses side
by side are all read from the level of the sum; only nesting counts.

Two families show where the bounds fall: `n` parentheses around one operand are read iff
`n ≤ 512`, and a chain of `k` operands of one precedence iff `k ≤ 257`.
-/

namespace LangFront.Parse

open Token Grammar Stream

theorem TooDeep.ne_ok {α : Type} {x : Except ParseError α} (h : TooDeep x) (a : α) :
    x ≠ .ok a := by
  obtain ⟨e, rfl, -⟩ := h
  intro h
  cases h

theorem ok_iff_of_tooDeep {α : Type} {x : Except ParseError α} {P Q : Prop}
    (hP : P → ∃ a, x = .ok a) (hQ : Q → TooDeep x) (hPQ : ¬ P → Q) :
    ((∃ a, x = .ok a) ↔ P) ∧ (Q → TooDeep x) := by
  refine ⟨⟨fun ⟨a, ha⟩ => ?_, hP⟩, hQ⟩
  exact Classical.byContradiction fun hn => (hQ (hPQ hn)).ne_ok a ha

theorem TooDeep.parenStep {x : Except ParseError (Option (Expr × Stream))} (h : TooDeep x)
    (s1 : Stream) : TooDeep (Parse.parenStep x s1) := by
  obtain ⟨e, rfl, he⟩ := h
  exact ⟨e, rfl, he⟩

theorem TooDeep.thenStep {x : Except ParseError (Option (Expr × Stream))}
    {k : Expr → Stream → Except ParseError (Expr × Stream)} (h : TooDeep x) :
    TooDeep (Parse.thenStep x k) := by
  obtain ⟨e, rfl, he⟩ := h
  exact ⟨e, rfl, he⟩

theorem head?_toList (s : Stream) : s.toList.head? = some s.current := by
  rw [toList_eq_current_cons]
  rfl

theorem forall_mem_head?_toList {P : Token → Prop} {s : Stream} (h : P s.current) :
    ∀ t ∈ s.toList.head?, P t := by
  intro t ht
  rw [head?_toList, Option.mem_def, Option.some.injEq] at ht
  exact ht ▸ h

/-! ## Outside the bounds, and inside them -/

theorem expr_tooDeep_or_bounded {lim d : Nat} {e : Expr} {u : List Token} {s s' : Stream}
    (he : Derives lim .expr (d + 1) e u) (hr : Reads s u s') (hs : Stops 0 s'.current) :
    TooDeep (expr d 0 s) ∨ (Derives maxOpen .expr (d + 1) e u ∧ e.height ≤ maxHeight) := by
  have hfollow : ∀ t ∈ s'.toList.head?, Stops 0 t := forall_mem_head?_toList hs
  rcases hx : expr d 0 s with err | _ | ⟨e', h, r⟩
  · by_cases hd : err.reason = .tooDeep
    · exact .inl ⟨err, rfl, hd⟩
    · exfalso
      obtain ⟨P, s₁, hP, -, -, hn⟩ := expr_fails hx hd
      have htl : u ++ s'.toList = P ++ s₁.current :: s₁.toList.tail := by
        rw [← hr.toList_eq, hP.toList_eq, ← toList_eq_current_cons]
      exact hn u s'.toList s₁.toList.tail ⟨⟨lim, d + 1, e, he⟩, hfollow⟩ htl
  · exfalso
    obtain ⟨t, w, rfl, ht⟩ := he.head_startsFactor rfl
    exact expr_none hx (hr.current_eq_of_cons ▸ ht)
  · obtain ⟨u', hd', hr', rfl, hh, hs'⟩ := expr_sound hx
    have heq : u ++ s'.toList = u' ++ r.val.toList := by
      rw [← hr.toList_eq, ← hr'.toList_eq]
    have hfollow' : ∀ t ∈ r.val.toList.head?, Sym.Follows .expr t := forall_mem_head?_toList hs'
    obtain ⟨rfl, rfl⟩ := Derives.unique he hd' heq hfollow hfollow'
    exact .inr ⟨hd', hh⟩

theorem expr_tooDeep_of_openParen_run :
    ∀ (ps : List Token) (d b : Nat) {s s' : Stream} {w : List Token},
      (∀ p ∈ ps, p.kind = .openParen) → maxOpen ≤ d + ps.length → Reads s (ps ++ w) s' →
        TooDeep (expr d b s)
  | [], d, b, s, _, _, _, hk, _ => ⟨_, expr_tooDeep (by simpa using hk), rfl⟩
  | o :: ps, d, b, s, _, _, ho, hk, hr => by
    by_cases hd : maxOpen ≤ d
    · exact ⟨_, expr_tooDeep hd, rfl⟩
    have ho' : o.kind = .openParen := ho o List.mem_cons_self
    rw [List.cons_append] at hr
    obtain ⟨hc, hr'⟩ := (Reads.cons_iff (by rw [ho']; decide)).1 hr
    have hp : s.accept? .openParen = some (o, s.advance) :=
      accept?_eq_some.2 ⟨hc ▸ ho', hc.symm, rfl⟩
    have hin := expr_tooDeep_of_openParen_run ps (d + 1) 0
      (fun p hp => ho p (List.mem_cons_of_mem o hp)) (by simp only [List.length_cons] at hk; omega) hr'
    rw [← tooDeep_dropHeight, dropHeight_expr (by omega), dropHeight_operand_paren hp]
    exact ((tooDeep_dropHeight.2 hin).parenStep s.advance).thenStep

theorem expr_tooDeep_of_openParens {o : Token} (ho : o.kind = .openParen) (k d b : Nat)
    {s s' : Stream} {w : List Token} (hk : maxOpen ≤ d + k)
    (hr : Reads s (List.replicate k o ++ w) s') : TooDeep (expr d b s) :=
  expr_tooDeep_of_openParen_run (List.replicate k o) d b
    (fun p hp => (List.eq_of_mem_replicate hp) ▸ ho) (by simpa using hk) hr

/-! ## Two families of expressions -/

/-- A token that is an operand by itself: a name or a number with its payload. -/
def LeafToken (t : Token) : Prop := (∃ x, NameToken t x) ∨ ∃ v, NumberToken t v

theorem LeafToken.factor {lim n : Nat} {t : Token} (h : LeafToken t) (hn : n ≤ lim) :
    ∃ f, Derives lim .factor n f [t] ∧ f.height = 0 := by
  rcases h with ⟨x, hx⟩ | ⟨v, hv⟩
  · exact ⟨_, .name hn hx, rfl⟩
  · exact ⟨_, .number hn hv, rfl⟩

theorem Derives.parens {lim : Nat} {o c x : Token} (ho : o.kind = .openParen)
    (hc : c.kind = .closeParen) (hx : LeafToken x) :
    ∀ (n m : Nat), m + n ≤ lim →
      ∃ f, Derives lim .expr m f (List.replicate n o ++ x :: List.replicate n c) ∧ f.height = 0
  | 0, m, hn => by
    obtain ⟨f, hf, hh⟩ := hx.factor (by omega : m ≤ lim)
    exact ⟨f, hf.term_of_factor.expr_of_term, hh⟩
  | n + 1, m, hn => by
    obtain ⟨f, hf, hh⟩ := @Derives.parens lim o c x ho hc hx n (m + 1) (by omega)
    refine ⟨f, ?_, hh⟩
    have hp := (Derives.paren ho hf hc).term_of_factor.expr_of_term
    rw [List.replicate_succ, List.replicate_succ']
    simpa using hp

/-- The tokens of a chain: the first operand, then each operator with the operand after it. -/
def chainTokens (x : Token) (ps : List (Token × Token)) : List Token :=
  x :: ps.flatMap fun p => [p.1, p.2]

theorem Derives.addTail_chain {lim n : Nat} (left : Expr) (ps : List (Token × Token))
    (hps : ∀ p ∈ ps, (∃ op, addOp? p.1.kind = some op) ∧ LeafToken p.2) (hn : n + 1 ≤ lim) :
    ∃ e, Derives lim (.addTail left) n e (ps.flatMap fun p => [p.1, p.2]) ∧
      e.height = left.height + ps.length := by
  induction ps generalizing left with
  | nil => exact ⟨left, .addNil, by simp⟩
  | cons p ps ih =>
    obtain ⟨⟨op, hop⟩, hl⟩ := hps p List.mem_cons_self
    obtain ⟨r, hr, hrh⟩ := hl.factor hn
    obtain ⟨e, he, heh⟩ := ih (.bin op left r) fun q hq => hps q (List.mem_cons_of_mem _ hq)
    refine ⟨e, by simpa using Derives.addCons hop hr.term_of_factor he, ?_⟩
    simp only [heh, Expr.height_bin, hrh, List.length_cons]
    omega

theorem Derives.mulTail_chain {lim n : Nat} (left : Expr) (ps : List (Token × Token))
    (hps : ∀ p ∈ ps, (∃ op, mulOp? p.1.kind = some op) ∧ LeafToken p.2) (hn : n + 1 ≤ lim) :
    ∃ e, Derives lim (.mulTail left) n e (ps.flatMap fun p => [p.1, p.2]) ∧
      e.height = left.height + ps.length := by
  induction ps generalizing left with
  | nil => exact ⟨left, .mulNil, by simp⟩
  | cons p ps ih =>
    obtain ⟨⟨op, hop⟩, hl⟩ := hps p List.mem_cons_self
    obtain ⟨r, hr, hrh⟩ := hl.factor hn
    obtain ⟨e, he, heh⟩ := ih (.bin op left r) fun q hq => hps q (List.mem_cons_of_mem _ hq)
    refine ⟨e, by simpa using Derives.mulCons hop hr he, ?_⟩
    simp only [heh, Expr.height_bin, hrh, List.length_cons]
    omega

theorem Derives.chain {x : Token} {ps : List (Token × Token)} (hx : LeafToken x)
    (hps : ∀ p ∈ ps, LeafToken p.2)
    (hops : (∀ p ∈ ps, ∃ op, addOp? p.1.kind = some op) ∨ ∀ p ∈ ps, ∃ op, mulOp? p.1.kind = some op) :
    ∃ e, Derives maxOpen .expr 1 e (chainTokens x ps) ∧ e.height = ps.length := by
  obtain ⟨f, hf, hfh⟩ := hx.factor (by decide : 1 ≤ maxOpen)
  rcases hops with hadd | hmul
  · obtain ⟨e, he, heh⟩ := Derives.addTail_chain f ps (fun p hp => ⟨hadd p hp, hps p hp⟩)
      (by decide : 1 + 1 ≤ maxOpen)
    exact ⟨e, by simpa [chainTokens] using Derives.expr hf.term_of_factor he, by simp [heh, hfh]⟩
  · obtain ⟨e, he, heh⟩ := Derives.mulTail_chain f ps (fun p hp => ⟨hmul p hp, hps p hp⟩)
      (by decide : 1 + 1 ≤ maxOpen)
    exact ⟨e, by simpa [chainTokens] using (Derives.term hf he).expr_of_term, by simp [heh, hfh]⟩

/-! ## The bounds are exact -/

section
variable {e : Expr} {u : List Token} {s s' : Stream}

/-- An expression of the grammar, followed by a token that cannot continue it, is refused
exactly where it leaves the parser's bounds. -/
theorem expr_tooDeep_iff {lim : Nat} (he : Derives lim .expr 1 e u) (hr : Reads s u s')
    (hs : Stops 0 s'.current) :
    TooDeep (expr 0 0 s) ↔ ¬ Derives maxOpen .expr 1 e u ∨ maxHeight < e.height := by
  constructor
  · intro htd
    refine Classical.byContradiction fun hin => ?_
    have hd : Derives maxOpen .expr 1 e u := Classical.byContradiction fun h => hin (.inl h)
    have hh : e.height ≤ maxHeight := Nat.le_of_not_lt fun h => hin (.inr h)
    obtain ⟨r, hx, -⟩ := expr_complete hd hr hs hh
    exact htd.ne_ok _ hx
  · intro hout
    rcases expr_tooDeep_or_bounded he hr hs with htd | ⟨hd, hh⟩
    · exact htd
    · rcases hout with h | h
      · exact absurd hd h
      · omega

/-- `n` parentheses around an operand are read iff `n ≤ 512`; more are refused. -/
theorem expr_parens_ok_iff {n : Nat} {o c x : Token} (ho : o.kind = .openParen)
    (hc : c.kind = .closeParen) (hx : LeafToken x)
    (hr : Reads s (List.replicate n o ++ x :: List.replicate n c) s') (hs : Stops 0 s'.current) :
    ((∃ r, expr 0 0 s = .ok r) ↔ n ≤ 512) ∧ (512 < n → TooDeep (expr 0 0 s)) := by
  refine ok_iff_of_tooDeep (fun hn => ?_)
    (fun hn => expr_tooDeep_of_openParens ho n 0 0 (by simp only [maxOpen]; omega) hr) (by omega)
  obtain ⟨f, hf, hh⟩ := @Derives.parens maxOpen o c x ho hc hx n 1 (by simp only [maxOpen]; omega)
  obtain ⟨r, hok, -⟩ := expr_complete hf hr hs (by rw [hh]; decide)
  exact ⟨_, hok⟩

/-- A chain of `k` operands of one precedence is read iff `k ≤ 257`; a longer one is refused. -/
theorem expr_chain_ok_iff {x : Token} {ps : List (Token × Token)} (hx : LeafToken x)
    (hps : ∀ p ∈ ps, LeafToken p.2)
    (hops : (∀ p ∈ ps, ∃ op, addOp? p.1.kind = some op) ∨ ∀ p ∈ ps, ∃ op, mulOp? p.1.kind = some op)
    (hr : Reads s (chainTokens x ps) s') (hs : Stops 0 s'.current) :
    ((∃ r, expr 0 0 s = .ok r) ↔ ps.length + 1 ≤ 257) ∧
      (257 < ps.length + 1 → TooDeep (expr 0 0 s)) := by
  obtain ⟨e, he, heh⟩ := Derives.chain hx hps hops
  refine ok_iff_of_tooDeep (fun hk => ?_) (fun hk => ?_) (by omega)
  · obtain ⟨r, hok, -⟩ := expr_complete he hr hs (by simp only [heh, maxHeight]; omega)
    exact ⟨_, hok⟩
  · rcases expr_tooDeep_or_bounded he hr hs with htd | ⟨-, hh⟩
    · exact htd
    · simp only [heh, maxHeight] at hh
      omega

end

/-- Climbing from level zero refuses an expression of the grammar, followed by a token that
cannot continue it, exactly when the expression leaves the parser's bounds: some point of its
derivation lies inside more than `maxOpen` open readings, or its tree is taller than
`maxHeight`. Otherwise it reads the grammar's tree. So `n` parentheses around an operand are
read iff `n ≤ 512`, and a chain of `k` operands of one precedence iff `k ≤ 257`; beyond that,
the reading is refused. -/
theorem expr_bounds_exact :
    (∀ (lim : Nat) (e : Expr) (u : List Token) (s s' : Stream), Derives lim .expr 1 e u →
      Reads s u s' → Stops 0 s'.current →
        (TooDeep (expr 0 0 s) ↔ ¬ Derives maxOpen .expr 1 e u ∨ maxHeight < e.height) ∧
        (¬ TooDeep (expr 0 0 s) → ∃ r, expr 0 0 s = .ok (some (e, e.height, r)) ∧ r.val = s')) ∧
    (∀ (n : Nat) (o c x : Token) (s s' : Stream), o.kind = .openParen → c.kind = .closeParen →
      LeafToken x → Reads s (List.replicate n o ++ x :: List.replicate n c) s' →
        Stops 0 s'.current →
          ((∃ r, expr 0 0 s = .ok r) ↔ n ≤ 512) ∧ (512 < n → TooDeep (expr 0 0 s))) ∧
    ∀ (x : Token) (ps : List (Token × Token)) (s s' : Stream), LeafToken x →
      (∀ p ∈ ps, LeafToken p.2) →
      ((∀ p ∈ ps, ∃ op, addOp? p.1.kind = some op) ∨ ∀ p ∈ ps, ∃ op, mulOp? p.1.kind = some op) →
      Reads s (chainTokens x ps) s' → Stops 0 s'.current →
        ((∃ r, expr 0 0 s = .ok r) ↔ ps.length + 1 ≤ 257) ∧
          (257 < ps.length + 1 → TooDeep (expr 0 0 s)) := by
  refine ⟨fun lim e u s s' he hr hs => ⟨expr_tooDeep_iff he hr hs, fun hnot => ?_⟩,
    fun n o c x s s' ho hc hx hr hs => expr_parens_ok_iff ho hc hx hr hs,
    fun x ps s s' hx hps hops hr hs => expr_chain_ok_iff hx hps hops hr hs⟩
  rcases expr_tooDeep_or_bounded he hr hs with htd | ⟨hd, hh⟩
  · exact absurd htd hnot
  · exact expr_complete hd hr hs hh

/-- An operand in one pair of parentheses is read as its own tree, in two pairs it is read, and
so is a sum of two operands. -/
theorem expr_bounds_exact_samples :
    (∃ r, expr 0 0 (ofList [kindToken .openParen, numberToken, kindToken .closeParen]) =
      .ok (some (.lit 0, 0, r))) ∧
    (∃ x, expr 0 0 (ofList [kindToken .openParen, kindToken .openParen, numberToken,
      kindToken .closeParen, kindToken .closeParen]) = .ok x) ∧
    ∃ x, expr 0 0 (ofList [numberToken, kindToken .plus, numberToken]) = .ok x := by
  have hleaf : LeafToken numberToken := .inr ⟨0, rfl, rfl⟩
  have hd : Derives maxOpen .expr 1 (.lit 0)
      [kindToken .openParen, numberToken, kindToken .closeParen] :=
    (Derives.paren rfl (numberToken_factor (by decide)).term_of_factor.expr_of_term
      rfl).term_of_factor.expr_of_term
  obtain ⟨hiff, hread⟩ := expr_bounds_exact.1 maxOpen (.lit 0) _
    (ofList [kindToken .openParen, numberToken, kindToken .closeParen]) (ofList []) hd ⟨rfl, rfl⟩
    (stops_of_kind rfl)
  obtain ⟨r, hr, -⟩ := hread fun h => (hiff.1 h).elim (· hd) (by decide)
  refine ⟨⟨r, hr⟩, ?_, ?_⟩
  · exact (expr_bounds_exact.2.1 2 _ _ _ (ofList [kindToken .openParen, kindToken .openParen,
      numberToken, kindToken .closeParen, kindToken .closeParen]) (ofList []) rfl rfl hleaf ⟨rfl, rfl⟩
      (stops_of_kind rfl)).1.2 (by decide)
  · exact (expr_bounds_exact.2.2 numberToken [(kindToken .plus, numberToken)]
      (ofList [numberToken, kindToken .plus, numberToken]) (ofList []) hleaf
      (by simpa using hleaf) (.inl (by simp [addOp?])) ⟨rfl, rfl⟩ (stops_of_kind rfl)).1.2
      (by decide)

end LangFront.Parse
