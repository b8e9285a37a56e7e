import LangFront.Proofs.ExprParse
/-!
# One token of lookahead decides every phrase

The grammar can be read from left to right looking one token ahead. A factor starts with a
number, a name or an open parenthesis (`Derives.head_startsFactor`). Two derivations of a symbol
that read the same tokens, each followed by a token that cannot continue the symbol, read the
same phrase and yield the same tree (`Derives.unique`); the same holds of parameters,
statements, bodies and function definitions, which close themselves.

These are facts of the grammar alone, with any limits, and the parser's error reporting rests on
them: where a reading fails, no derivation of the grammar could have gone on.
-/

namespace LangFront.Grammar

open Token Parse

/-! ## First tokens and what may follow -/

/-- A token that starts a factor: a number, a name or an open parenthesis. -/
def StartsFactor (t : Token) : Prop :=
  t.kind = .number ∨ t.kind = .identifier ∨ t.kind = .openParen

/-- The tokens that may follow a phrase of a symbol without continuing it. -/
def Sym.Follows : Sym → Token → Prop
  | .factor, _ => True
  | .term, t => Stops 1 t
  | .expr, t => Stops 0 t
  | .mulTail _, t => Stops 1 t
  | .addTail _, t => Stops 0 t

theorem NameToken.unique {t : Token} {x y : String} (hx : NameToken t x) (hy : NameToken t y) :
    x = y := by
  have h := hx.2.symm.trans hy.2
  simpa using h

theorem NumberToken.unique {t : Token} {v w : Int32} (hv : NumberToken t v)
    (hw : NumberToken t w) : v = w := by
  have h := hv.2.symm.trans hw.2
  simpa using h

/-- Every phrase of an expression, a term or a factor starts with a token that starts a
factor. -/
theorem Derives.head_startsFactor {lim n : Nat} {g : Sym} {e : Expr} {w : List Token}
    (h : Derives lim g n e w) (hg : g.isTail = false) :
    ∃ t w', w = t :: w' ∧ StartsFactor t := by
  induction h with
  | number _ ht => exact ⟨_, _, rfl, .inl ht.1⟩
  | name _ ht => exact ⟨_, _, rfl, .inr (.inl ht.1)⟩
  | paren ho _ _ _ => exact ⟨_, _, rfl, .inr (.inr ho)⟩
  | term _ _ ih _ | expr _ _ ih _ =>
    obtain ⟨t, w', rfl, ht⟩ := ih rfl
    exact ⟨t, _, rfl, ht⟩
  | mulNil | mulCons | addNil | addCons => simp [Sym.isTail] at hg

theorem stops_of_mulOp? {b : Nat} {t : Token} {op : Op} (hop : mulOp? t.kind = some op)
    (hb : Stops b t) : 2 ≤ b := by
  have h := mulOp?_iff.1 hop
  have := hb op h.1
  omega

theorem stops_of_addOp? {b : Nat} {t : Token} {op : Op} (hop : addOp? t.kind = some op)
    (hb : Stops b t) : 1 ≤ b := by
  have h := addOp?_iff.1 hop
  have := hb op h.1
  omega

theorem addTail_follows {lim n : Nat} {left e : Expr} {v r : List Token}
    (h : Derives lim (.addTail left) n e v) (hr : ∀ t ∈ r.head?, Stops 0 t) :
    ∀ t ∈ (v ++ r).head?, Stops 1 t := by
  cases v with
  | nil => exact fun t ht => (hr t (by simpa using ht)).mono (by decide)
  | cons t' v =>
    intro t ht
    simp only [List.cons_append, List.head?_cons, Option.mem_def, Option.some.injEq] at ht
    subst ht
    obtain ⟨op, hop⟩ := addTail_head h
    intro op' hop'
    have hadd := addOp?_iff.1 hop
    rw [hadd.1, Option.some.injEq] at hop'
    subst hop'
    omega

/-! ## Derivations are decided by their tokens -/

/-- Two derivations of a symbol over the same tokens, each followed by a token that cannot
continue the symbol, read the same phrase and yield the same tree. By induction on the first
derivation; at each step the first token, or the token after a phrase, tells the second
derivation which rule it used. -/
theorem Derives.unique {lim₁ lim₂ n₁ n₂ : Nat} {g : Sym} {e₁ e₂ : Expr}
    {w₁ w₂ r₁ r₂ : List Token} (h₁ : Derives lim₁ g n₁ e₁ w₁) (h₂ : Derives lim₂ g n₂ e₂ w₂)
    (heq : w₁ ++ r₁ = w₂ ++ r₂) (hr₁ : ∀ t ∈ r₁.head?, g.Follows t)
    (hr₂ : ∀ t ∈ r₂.head?, g.Follows t) : w₁ = w₂ ∧ e₁ = e₂ := by
  induction h₁ generalizing n₂ e₂ w₂ r₁ r₂ with
  | number _ ht =>
    cases h₂ with
    | number _ ht' =>
      simp only [List.singleton_append, List.cons.injEq] at heq
      obtain ⟨rfl, -⟩ := heq
      exact ⟨rfl, by rw [NumberToken.unique ht ht']⟩
    | name _ ht' =>
      simp only [List.singleton_append, List.cons.injEq] at heq
      obtain ⟨rfl, -⟩ := heq
      exact absurd (ht.1.symm.trans ht'.1) (by decide)
    | paren ho' _ _ =>
      simp only [List.cons_append, List.cons.injEq] at heq
      obtain ⟨rfl, -⟩ := heq
      exact absurd (ht.1.symm.trans ho') (by decide)
  | name _ ht =>
    cases h₂ with
    | number _ ht' =>
      simp only [List.singleton_append, List.cons.injEq] at heq
      obtain ⟨rfl, -⟩ := heq
      exact absurd (ht.1.symm.trans ht'.1) (by decide)
    | name _ ht' =>
      simp only [List.singleton_append, List.cons.injEq] at heq
      obtain ⟨rfl, -⟩ := heq
      exact ⟨rfl, by rw [NameToken.unique ht ht']⟩
    | paren ho' _ _ =>
      simp only [List.cons_append, List.cons.injEq] at heq
      obtain ⟨rfl, -⟩ := heq
      exact absurd (ht.1.symm.trans ho') (by decide)
  | paren ho _ hc ih =>
    cases h₂ with
    | number _ ht' =>
      simp only [List.cons_append, List.cons.injEq] at heq
      obtain ⟨rfl, -⟩ := heq
      exact absurd (ho.symm.trans ht'.1) (by decide)
    | name _ ht' =>
      simp only [List.cons_append, List.cons.injEq] at heq
      obtain ⟨rfl, -⟩ := heq
      exact absurd (ho.symm.trans ht'.1) (by decide)
    | paren _ hd' hc' =>
      simp only [List.cons_append, List.append_assoc, List.cons.injEq] at heq
      obtain ⟨rfl, heq⟩ := heq
      obtain ⟨rfl, rfl⟩ := ih hd' heq (fun t ht => by
        simp only [List.head?_cons, Option.mem_def, Option.some.injEq] at ht
        exact ht ▸ stops_of_kind (by rw [hc]; rfl))
        (fun t ht => by
        simp only [List.head?_cons, Option.mem_def, Option.some.injEq] at ht
        exact ht ▸ stops_of_kind (by rw [hc']; rfl))
      simp only [List.append_cancel_left_eq, List.cons.injEq] at heq
      rw [heq.1]
      exact ⟨rfl, rfl⟩
  | term _ _ ihf ihm =>
    cases h₂ with
    | term hf' hm' =>
      rw [List.append_assoc, List.append_assoc] at heq
      obtain ⟨rfl, rfl⟩ := ihf hf' heq (fun _ _ => trivial) (fun _ _ => trivial)
      obtain ⟨rfl, rfl⟩ := ihm hm' (List.append_cancel_left heq) hr₁ hr₂
      exact ⟨rfl, rfl⟩
  | expr _ ha iht iha =>
    cases h₂ with
    | expr ht' ha' =>
      rw [List.append_assoc, List.append_assoc] at heq
      obtain ⟨rfl, rfl⟩ := iht ht' heq (addTail_follows ha hr₁) (addTail_follows ha' hr₂)
      obtain ⟨rfl, rfl⟩ := iha ha' (List.append_cancel_left heq) hr₁ hr₂
      exact ⟨rfl, rfl⟩
  | mulNil =>
    cases h₂ with
    | mulNil => exact ⟨rfl, rfl⟩
    | mulCons hop' _ _ =>
      simp only [List.nil_append] at heq
      subst heq
      have := stops_of_mulOp? hop' (hr₁ _ rfl)
      omega
  | mulCons hop _ _ ihf ihm =>
    cases h₂ with
    | mulNil =>
      simp only [List.nil_append] at heq
      rw [← heq] at hr₂
      have := stops_of_mulOp? hop (hr₂ _ rfl)
      omega
    | mulCons hop' hf' hm' =>
      simp only [List.cons_append, List.append_assoc, List.cons.injEq] at heq
      obtain ⟨rfl, heq⟩ := heq
      rw [hop, Option.some.injEq] at hop'
      subst hop'
      obtain ⟨rfl, rfl⟩ := ihf hf' heq (fun _ _ => trivial) (fun _ _ => trivial)
      obtain ⟨rfl, rfl⟩ := ihm hm' (List.append_cancel_left heq) hr₁ hr₂
      exact ⟨rfl, rfl⟩
  | addNil =>
    cases h₂ with
    | addNil => exact ⟨rfl, rfl⟩
    | addCons hop' _ _ =>
      simp only [List.nil_append] at heq
      subst heq
      have := stops_of_addOp? hop' (hr₁ _ rfl)
      omega
  | addCons hop _ ha iht iha =>
    cases h₂ with
    | addNil =>
      simp only [List.nil_append] at heq
      rw [← heq] at hr₂
      have := stops_of_addOp? hop (hr₂ _ rfl)
      omega
    | addCons hop' ht' ha' =>
      simp only [List.cons_append, List.append_assoc, List.cons.injEq] at heq
      obtain ⟨rfl, heq⟩ := heq
      rw [hop, Option.some.injEq] at hop'
      subst hop'
      obtain ⟨rfl, rfl⟩ := iht ht' heq (addTail_follows ha hr₁) (addTail_follows ha' hr₂)
      obtain ⟨rfl, rfl⟩ := iha ha' (List.append_cancel_left heq) hr₁ hr₂
      exact ⟨rfl, rfl⟩

/-! ## The layers that climbing reads -/

theorem follows_layerOf {b : Nat} {t : Token} (h : Stops b t) : (layerOf b).Follows t := by
  match b with
  | 0 => exact h
  | 1 => exact h
  | _ + 2 => trivial

theorem Derives.layerOf_of_factor {lim b n : Nat} {e : Expr} {u : List Token}
    (h : Derives lim .factor n e u) : Derives lim (layerOf b) n e u := by
  match b with
  | 0 => exact h.term_of_factor.expr_of_term
  | 1 => exact h.term_of_factor
  | _ + 2 => exact h

theorem Derives.layerOf_inv {lim b n : Nat} {e : Expr} {w : List Token}
    (h : Derives lim (layerOf b) n e w) :
    ∃ f u v, Derives lim .factor n f u ∧ ClimbTail lim b n f e v ∧ w = u ++ v := by
  match b with
  | 0 =>
    change Derives lim .expr n e w at h
    cases h with
    | expr ht ha =>
      cases ht with
      | term hf hm => exact ⟨_, _, _, hf, ⟨_, _, _, rfl, hm, ha⟩, by simp⟩
  | 1 =>
    change Derives lim .term n e w at h
    cases h with
    | term hf hm => exact ⟨_, _, _, hf, hm, rfl⟩
  | _ + 2 => exact ⟨e, w, [], h, ⟨rfl, rfl⟩, by simp⟩

theorem climbTail_cons_inv {lim b n : Nat} {left e : Expr} {t : Token} {w : List Token}
    (h : ClimbTail lim b n left e (t :: w)) :
    ∃ op r u v, Op.ofKind? t.kind = some op ∧ b < op.precedence ∧
      Derives lim (layerOf op.precedence) (n + 1) r u ∧ ClimbTail lim b n (.bin op left r) e v ∧
      w = u ++ v ∧ ∀ t' v', v = t' :: v' → Stops op.precedence t' := by
  match b, h with
  | 0, ⟨m, [], u₂, hw, hm, ha⟩ =>
    cases hm
    simp only [List.nil_append] at hw
    subst hw
    cases ha with
    | @addCons _ _ r _ op _ u v hop ht ha =>
      have hadd := addOp?_iff.1 hop
      have hr : Derives lim (layerOf op.precedence) (n + 1) r u := by
        rw [hadd.2]
        exact ht
      refine ⟨_, _, _, _, hadd.1, by omega, hr, ⟨_, [], _, rfl, .mulNil, ha⟩, rfl, ?_⟩
      intro t' v' hv
      subst hv
      obtain ⟨op', hop'⟩ := addTail_head ha
      intro op'' hop''
      have hadd' := addOp?_iff.1 hop'
      rw [hadd'.1, Option.some.injEq] at hop''
      subst hop''
      omega
  | 0, ⟨m, t₁ :: u₁, u₂, hw, hm, ha⟩ =>
    simp only [List.cons_append, List.cons.injEq] at hw
    obtain ⟨rfl, rfl⟩ := hw
    cases hm with
    | @mulCons _ _ r _ op _ u v hop hf hm =>
      have hmul := mulOp?_iff.1 hop
      have hr : Derives lim (layerOf op.precedence) (n + 1) r u := by
        rw [hmul.2]
        exact hf
      refine ⟨_, _, _, _, hmul.1, by omega, hr, ⟨_, _, _, rfl, hm, ha⟩, by simp, ?_⟩
      intro t' v' _
      rw [hmul.2]
      exact stops_two t'
  | 1, h =>
    cases h with
    | @mulCons _ _ r _ op _ u v hop hf hm =>
      have hmul := mulOp?_iff.1 hop
      have hr : Derives lim (layerOf op.precedence) (n + 1) r u := by
        rw [hmul.2]
        exact hf
      exact ⟨_, _, _, _, hmul.1, by omega, hr, hm, rfl, fun t' _ _ => hmul.2 ▸ stops_two t'⟩
  | _ + 2, ⟨hw, _⟩ => cases hw

/-! ## Phrases that close themselves -/

theorem ParamPhrase.unique {p₁ p₂ : Param} {w₁ w₂ r₁ r₂ : List Token} (h₁ : ParamPhrase p₁ w₁)
    (h₂ : ParamPhrase p₂ w₂) (heq : w₁ ++ r₁ = w₂ ++ r₂) : w₁ = w₂ ∧ p₁ = p₂ := by
  cases h₁ with
  | mk ha _ hc =>
    cases h₂ with
    | mk ha' _ hc' =>
      simp only [List.cons_append, List.nil_append, List.cons.injEq] at heq
      obtain ⟨rfl, rfl, rfl, -⟩ := heq
      rw [NameToken.unique ha ha', NameToken.unique hc hc']
      exact ⟨rfl, rfl⟩

/-- Phrases that close themselves and start with a token of a class, repeated up to a token
outside the class, are decided by their tokens. -/
theorem Star.unique {α : Type} {P₁ P₂ : α → List Token → Prop} {S : Token → Prop}
    (hP : ∀ {a₁ a₂ w₁ w₂ r₁ r₂}, P₁ a₁ w₁ → P₂ a₂ w₂ → w₁ ++ r₁ = w₂ ++ r₂ → w₁ = w₂ ∧ a₁ = a₂)
    (hS₁ : ∀ {a w}, P₁ a w → ∃ t w', w = t :: w' ∧ S t)
    (hS₂ : ∀ {a w}, P₂ a w → ∃ t w', w = t :: w' ∧ S t)
    {as₁ as₂ : List α} {w₁ w₂ r₁ r₂ : List Token} (h₁ : Star P₁ as₁ w₁) (h₂ : Star P₂ as₂ w₂)
    (heq : w₁ ++ r₁ = w₂ ++ r₂) (hr₁ : ∀ t ∈ r₁.head?, ¬ S t) (hr₂ : ∀ t ∈ r₂.head?, ¬ S t) :
    w₁ = w₂ ∧ as₁ = as₂ := by
  induction h₁ generalizing as₂ w₂ r₁ r₂ with
  | nil =>
    cases h₂ with
    | nil => exact ⟨rfl, rfl⟩
    | cons ha _ =>
      obtain ⟨t, w', rfl, ht⟩ := hS₂ ha
      simp only [List.nil_append, List.cons_append] at heq
      subst heq
      exact absurd ht (hr₁ t rfl)
  | cons ha _ ih =>
    cases h₂ with
    | nil =>
      obtain ⟨t, w', rfl, ht⟩ := hS₁ ha
      simp only [List.nil_append, List.cons_append] at heq
      rw [← heq] at hr₂
      exact absurd ht (hr₂ t rfl)
    | cons ha' hs' =>
      rw [List.append_assoc, List.append_assoc] at heq
      obtain ⟨rfl, rfl⟩ := hP ha ha' heq
      obtain ⟨rfl, rfl⟩ := ih hs' (List.append_cancel_left heq) hr₁ hr₂
      exact ⟨rfl, rfl⟩

theorem CommaParam.unique {p₁ p₂ : Param} {w₁ w₂ r₁ r₂ : List Token} (h₁ : CommaParam p₁ w₁)
    (h₂ : CommaParam p₂ w₂) (heq : w₁ ++ r₁ = w₂ ++ r₂) : w₁ = w₂ ∧ p₁ = p₂ := by
  cases h₁ with
  | mk _ hp =>
    cases h₂ with
    | mk _ hp' =>
      simp only [List.cons_append, List.cons.injEq] at heq
      obtain ⟨rfl, heq⟩ := heq
      obtain ⟨rfl, rfl⟩ := hp.unique hp' heq
      exact ⟨rfl, rfl⟩

theorem CommaParam.head {p : Param} {w : List Token} (h : CommaParam p w) :
    ∃ t w', w = t :: w' ∧ t.kind = .comma := by
  cases h with
  | mk hc _ => exact ⟨_, _, rfl, hc⟩

theorem CommaParam.star_unique {ps₁ ps₂ : List Param} {w₁ w₂ r₁ r₂ : List Token}
    (h₁ : Star CommaParam ps₁ w₁) (h₂ : Star CommaParam ps₂ w₂) (heq : w₁ ++ r₁ = w₂ ++ r₂)
    (hr₁ : ∀ t ∈ r₁.head?, t.kind ≠ .comma) (hr₂ : ∀ t ∈ r₂.head?, t.kind ≠ .comma) :
    w₁ = w₂ ∧ ps₁ = ps₂ :=
  Star.unique CommaParam.unique CommaParam.head CommaParam.head h₁ h₂ heq hr₁ hr₂

theorem ParamPhrase.head {p : Param} {w : List Token} (h : ParamPhrase p w) :
    ∃ t w', w = t :: w' ∧ t.kind = .identifier := by
  cases h with
  | mk ha _ _ => exact ⟨_, _, rfl, ha.1⟩

theorem not_comma_of_closeParen {c : Token} (hc : c.kind = .closeParen) (r : List Token) :
    ∀ t ∈ (c :: r).head?, t.kind ≠ .comma := by
  simp [hc]

theorem ParamList.unique {ps₁ ps₂ : List Param} {w₁ w₂ r₁ r₂ : List Token}
    (h₁ : ParamList ps₁ w₁) (h₂ : ParamList ps₂ w₂) (heq : w₁ ++ r₁ = w₂ ++ r₂) :
    w₁ = w₂ ∧ ps₁ = ps₂ := by
  cases h₁ with
  | empty _ hc =>
    cases h₂ with
    | empty =>
      simp only [List.cons_append, List.nil_append, List.cons.injEq] at heq
      obtain ⟨rfl, rfl, -⟩ := heq
      exact ⟨rfl, rfl⟩
    | cons _ hp _ _ =>
      obtain ⟨t, w', rfl, ht⟩ := hp.head
      simp only [List.cons_append, List.nil_append, List.cons.injEq] at heq
      exact absurd (hc.symm.trans (heq.2.1 ▸ ht)) (by decide)
  | cons _ hp hs hc =>
    cases h₂ with
    | empty _ hc' =>
      obtain ⟨t, w', rfl, ht⟩ := hp.head
      simp only [List.cons_append, List.nil_append, List.cons.injEq] at heq
      exact absurd (hc'.symm.trans (heq.2.1 ▸ ht)) (by decide)
    | cons _ hp' hs' hc' =>
      simp only [List.cons_append, List.append_assoc, List.cons.injEq] at heq
      obtain ⟨rfl, heq⟩ := heq
      obtain ⟨rfl, rfl⟩ := hp.unique hp' heq
      have heq' := List.append_cancel_left heq
      obtain ⟨rfl, rfl⟩ := CommaParam.star_unique hs hs' (by simpa using heq')
        (not_comma_of_closeParen hc _) (not_comma_of_closeParen hc' _)
      simp only [List.append_cancel_left_eq, List.cons.injEq] at heq'
      rw [heq'.1]
      exact ⟨rfl, rfl⟩

theorem stops_cons {b : Nat} {t : Token} (h : Op.ofKind? t.kind = none) (r : List Token) :
    ∀ t' ∈ (t :: r).head?, Stops b t' := by
  simpa using stops_of_kind h

theorem StmtPhrase.unique {L₁ L₂ : Limits} {st₁ st₂ : Stmt} {w₁ w₂ r₁ r₂ : List Token}
    (h₁ : StmtPhrase L₁ st₁ w₁) (h₂ : StmtPhrase L₂ st₂ w₂) (heq : w₁ ++ r₁ = w₂ ++ r₂) :
    w₁ = w₂ ∧ st₁ = st₂ := by
  cases h₁ with
  | decl hk ha _ hc _ hv hsc =>
    cases h₂ with
    | decl _ ha' _ hc' _ hv' hsc' =>
      simp only [List.cons_append, List.append_assoc, List.cons.injEq] at heq
      obtain ⟨rfl, rfl, rfl, rfl, rfl, heq⟩ := heq
      obtain ⟨rfl, rfl⟩ := Derives.unique hv.1 hv'.1 heq
        (stops_cons (by rw [hsc]; rfl) _) (stops_cons (by rw [hsc']; rfl) _)
      simp only [List.append_cancel_left_eq, List.cons.injEq] at heq
      rw [heq.1, NameToken.unique ha ha', NameToken.unique hc hc']
      exact ⟨rfl, rfl⟩
    | ret hk' _ _ =>
      simp only [List.cons_append, List.cons.injEq] at heq
      rw [heq.1] at hk
      exact absurd (hk.symm.trans hk') (by decide)
  | ret hk hv hsc =>
    cases h₂ with
    | decl hk' _ _ _ _ _ _ =>
      simp only [List.cons_append, List.cons.injEq] at heq
      rw [heq.1] at hk
      exact absurd (hk.symm.trans hk') (by decide)
    | ret _ hv' hsc' =>
      simp only [List.cons_append, List.append_assoc, List.cons.injEq] at heq
      obtain ⟨rfl, heq⟩ := heq
      obtain ⟨rfl, rfl⟩ := Derives.unique hv.1 hv'.1 heq
        (stops_cons (by rw [hsc]; rfl) _) (stops_cons (by rw [hsc']; rfl) _)
      simp only [List.append_cancel_left_eq, List.cons.injEq] at heq
      rw [heq.1]
      exact ⟨rfl, rfl⟩

theorem StmtPhrase.star_unique {L₁ L₂ : Limits} {sts₁ sts₂ : List Stmt} {w₁ w₂ r₁ r₂ : List Token}
    (h₁ : Star (StmtPhrase L₁) sts₁ w₁) (h₂ : Star (StmtPhrase L₂) sts₂ w₂)
    (heq : w₁ ++ r₁ = w₂ ++ r₂) (hr₁ : ∀ t ∈ r₁.head?, t.kind = .closeBrace)
    (hr₂ : ∀ t ∈ r₂.head?, t.kind = .closeBrace) : w₁ = w₂ ∧ sts₁ = sts₂ := by
  have hnot : ∀ r : List Token, (∀ t ∈ r.head?, t.kind = .closeBrace) →
      ∀ t ∈ r.head?, ¬ (t.kind = .kwVar ∨ t.kind = .kwReturn) := by
    intro r hr t ht hk
    rcases hk with hk | hk <;> rw [hr t ht] at hk <;> cases hk
  exact Star.unique (S := fun t => t.kind = .kwVar ∨ t.kind = .kwReturn) StmtPhrase.unique
    StmtPhrase.eq_cons StmtPhrase.eq_cons h₁ h₂ heq (hnot r₁ hr₁) (hnot r₂ hr₂)

theorem BlockPhrase.unique {L₁ L₂ : Limits} {sts₁ sts₂ : List Stmt} {w₁ w₂ r₁ r₂ : List Token}
    (h₁ : BlockPhrase L₁ sts₁ w₁) (h₂ : BlockPhrase L₂ sts₂ w₂) (heq : w₁ ++ r₁ = w₂ ++ r₂) :
    w₁ = w₂ ∧ sts₁ = sts₂ := by
  cases h₁ with
  | mk _ hs hc =>
    cases h₂ with
    | mk _ hs' hc' =>
      simp only [List.cons_append, List.append_assoc, List.cons.injEq] at heq
      obtain ⟨rfl, heq⟩ := heq
      have hbrace : ∀ c : Token, c.kind = .closeBrace → ∀ r, ∀ t ∈ (c :: r).head?,
          t.kind = .closeBrace := by
        intro c hc r t ht
        simp only [List.head?_cons, Option.mem_def, Option.some.injEq] at ht
        exact ht ▸ hc
      obtain ⟨rfl, rfl⟩ := StmtPhrase.star_unique hs hs' heq (hbrace _ hc _) (hbrace _ hc' _)
      simp only [List.append_cancel_left_eq, List.cons.injEq] at heq
      rw [heq.1]
      exact ⟨rfl, rfl⟩

theorem FunctionPhrase.unique {L₁ L₂ : Limits} {f₁ f₂ : FunctionDef} {w₁ w₂ r₁ r₂ : List Token}
    (h₁ : FunctionPhrase L₁ f₁ w₁) (h₂ : FunctionPhrase L₂ f₂ w₂) (heq : w₁ ++ r₁ = w₂ ++ r₂) :
    w₁ = w₂ ∧ f₁ = f₂ := by
  cases h₁ with
  | mk _ ha hu _ hr hb =>
    cases h₂ with
    | mk _ ha' hu' _ hr' hb' =>
      simp only [List.cons_append, List.append_assoc, List.cons.injEq] at heq
      obtain ⟨rfl, rfl, heq⟩ := heq
      obtain ⟨rfl, rfl⟩ := ParamList.unique hu hu' heq
      simp only [List.append_cancel_left_eq, List.cons.injEq] at heq
      obtain ⟨rfl, rfl, heq⟩ := heq
      obtain ⟨rfl, rfl⟩ := BlockPhrase.unique hb hb' heq
      rw [NameToken.unique ha ha', NameToken.unique hr hr']
      exact ⟨rfl, rfl⟩

end LangFront.Grammar
