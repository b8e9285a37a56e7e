import LangFront.Proofs.ExprParse
import LangFront.Syntax.Parse.Program
/-!
# The program reader reads the program grammar

Each reading step of the program reader is described twice, as for expressions: what a step
that succeeds has read (`*_sound`), and that a phrase of the grammar is read whole
(`*_complete`). Three steps look past their phrase, and their completeness needs to know what
follows it: the parameters after the first stop at the first token that is no comma, an
expression at the first token that is no operator, and the statements of a body at the closing
brace. In a sentence of the grammar a closing parenthesis follows the parameters and a semicolon
follows an expression, so these conditions always hold there.

The main result, `Program.ofTokens_eq_ok_iff`, says that the reader accepts exactly the programs
of the grammar within the parser's bounds, read from the tokens that a cursor over the list
holds before its first end token.
-/

namespace LangFront.Parse

open Token Grammar Stream

/-! ## Single tokens -/

theorem expect_of_kind {k : Kind} {rs : Reason} {s : Stream} (h : s.current.kind = k) :
    expect k rs s = .ok ⟨s.advance, Stream.size_advance_le s⟩ := by
  unfold expect
  split
  · rename_i t s' hs
    obtain ⟨-, -, rfl⟩ := accept?_eq_some.1 hs
    rfl
  · rename_i hs
    exact absurd h (accept?_eq_none.1 hs)

theorem expect_sound {k : Kind} {rs : Reason} {s : Stream} {r : Rest s}
    (h : expect k rs s = .ok r) (hk : k ≠ .endOfFile) : ∃ t, t.kind = k ∧ Reads s [t] r.val := by
  obtain ⟨h1, h2⟩ := expect_eq_ok h
  rw [h2]
  exact ⟨s.current, h1, reads_advance (h1 ▸ hk)⟩

theorem name?_of_kind {s : Stream} (h : s.current.kind ≠ .identifier) : name? s = .ok none := by
  rw [name?, if_neg (by simpa [Stream.peekIs] using h)]

theorem kind_of_name?_none {s : Stream} (h : name? s = .ok none) :
    s.current.kind ≠ .identifier := by
  intro hk
  unfold name? at h
  rw [if_pos (by simp [Stream.peekIs, hk])] at h
  split at h <;> cases h

theorem expectName_of_nameToken {rs : Reason} {s : Stream} {x : String}
    (h : NameToken s.current x) :
    expectName rs s = .ok (x, ⟨s.advance, Stream.size_advance_le s⟩) := by
  rw [expectName, name?_of_nameToken h]

theorem expectName_sound {rs : Reason} {s : Stream} {x : String} {r : Rest s}
    (h : expectName rs s = .ok (x, r)) : ∃ t, NameToken t x ∧ Reads s [t] r.val := by
  unfold expectName at h
  split at h
  · cases h
  · cases h
  · rename_i p hp
    cases h
    exact ⟨s.current, name?_eq_some hp⟩

/-! ## Values -/

theorem expectExpr_sound {rs : Reason} {s : Stream} {e : Expr} {r : Rest s}
    (h : expectExpr rs s = .ok (e, r)) :
    ∃ u, ValuePhrase Limits.parser e u ∧ Reads s u r.val ∧ Stops 0 r.val.current := by
  unfold expectExpr at h
  split at h
  · cases h
  · cases h
  · rename_i e' h' r' hx
    cases h
    obtain ⟨u, hd, hu, -, hh, hs⟩ := expr_sound hx
    exact ⟨u, ⟨hd, hh⟩, hu, hs⟩

theorem expectExpr_complete (rs : Reason) {s s' : Stream} {e : Expr} {u : List Token}
    (he : ValuePhrase Limits.parser e u) (hr : Reads s u s') (hs : Stops 0 s'.current) :
    ∃ r, expectExpr rs s = .ok (e, r) ∧ r.val = s' := by
  obtain ⟨r, hx, rfl⟩ := expr_complete he.1 hr hs he.2
  rw [expectExpr, hx]
  exact ⟨r, rfl, rfl⟩

/-! ## Parameters -/

theorem param?_of_kind {s : Stream} (h : s.current.kind ≠ .identifier) : param? s = .ok none := by
  rw [param?, name?_of_kind h]

theorem kind_of_param?_none {s : Stream} (h : param? s = .ok none) :
    s.current.kind ≠ .identifier := by
  unfold param? at h
  split at h
  · cases h
  · rename_i hx
    exact kind_of_name?_none hx
  · split at h
    · cases h
    · split at h <;> cases h

theorem param?_sound {s : Stream} {p : Param} {r : Rest s} (h : param? s = .ok (some (p, r))) :
    ∃ u, ParamPhrase p u ∧ Reads s u r.val := by
  unfold param? at h
  split at h
  · cases h
  · cases h
  · rename_i x s₁ h₁ hx
    split at h
    · cases h
    · rename_i s₂ h₂ hc
      split at h
      · cases h
      · rename_i ty s₃ h₃ ht
        cases h
        obtain ⟨hname, hr₁⟩ := name?_eq_some hx
        obtain ⟨c, hck, hr₂⟩ := expect_sound hc (by decide)
        obtain ⟨t, htn, hr₃⟩ := expectName_sound ht
        exact ⟨[s.current, c, t], .mk hname hck htn, hr₁.trans (hr₂.trans hr₃)⟩

theorem param?_complete {s s' : Stream} {p : Param} {u : List Token} (hp : ParamPhrase p u)
    (hr : Reads s u s') : ∃ r, param? s = .ok (some (p, r)) ∧ r.val = s' := by
  cases hp with
  | @mk a b c x ty ha hb hc =>
    obtain ⟨rfl, hr₁⟩ := (Reads.cons_iff (by rw [ha.1]; decide)).1 hr
    obtain ⟨rfl, hr₂⟩ := (Reads.cons_iff (by rw [hb]; decide)).1 hr₁
    obtain ⟨rfl, rfl⟩ := (Reads.single_iff (by rw [hc.1]; decide)).1 hr₂
    rw [param?, name?_of_nameToken ha]
    simp only [expect_of_kind hb, expectName_of_nameToken hc]
    exact ⟨_, rfl, rfl⟩

theorem moreParams_sound {s : Stream} :
    ∀ {ps : List Param} {r : Rest s}, moreParams s = .ok (ps, r) →
      ∃ u, Star CommaParam ps u ∧ Reads s u r.val ∧ r.val.current.kind ≠ .comma := by
  fun_induction moreParams s with
  | case1 s hc =>
    intro ps r h
    cases h
    exact ⟨[], .nil, Reads.refl s, accept?_eq_none.1 hc⟩
  | case2 | case3 | case4 => intro _ _ h; cases h
  | case5 s t s₁ hc h₁ p s₂ h₂ hp ps s₃ h₃ hm ih =>
    intro ps' r h
    cases h
    obtain ⟨hk, hr₁⟩ := Reads.of_accept? hc (by decide)
    obtain ⟨u, hu, hr₂⟩ := param?_sound hp
    obtain ⟨v, hv, hr₃, hend⟩ := ih hm
    exact ⟨t :: u ++ v, .cons (.mk hk hu) hv, hr₁.trans (hr₂.trans hr₃), hend⟩

theorem moreParams_complete {ps : List Param} {u : List Token} (hp : Star CommaParam ps u) :
    ∀ {s s' : Stream}, Reads s u s' → s'.current.kind ≠ .comma →
      ∃ r, moreParams s = .ok (ps, r) ∧ r.val = s' := by
  induction hp with
  | nil =>
    intro s s' hr hc
    obtain rfl := Reads.nil_iff.1 hr
    rw [moreParams]
    split
    · exact ⟨_, rfl, rfl⟩
    · rename_i t s₁ hsome
      exact absurd (accept?_eq_some.1 hsome).1 hc
  | @cons p ps w v hcp hs ih =>
    intro s s' hr hc
    cases hcp with
    | @mk c p u hck hu =>
      obtain ⟨rfl, hr₁⟩ := (Reads.cons_iff (by rw [hck]; decide)).1 hr
      obtain ⟨s₁, hr₂, hr₃⟩ := Reads.split hr₁
      rw [moreParams]
      split
      · rename_i hnone
        exact absurd hck (accept?_eq_none.1 hnone)
      · rename_i t s₂ hsome
        obtain ⟨-, -, rfl⟩ := accept?_eq_some.1 hsome
        obtain ⟨⟨s₃, h₃⟩, hpar, rfl⟩ := param?_complete hu hr₂
        obtain ⟨⟨s₄, h₄⟩, hmore, rfl⟩ := ih hr₃ hc
        simp only [hpar, hmore]
        exact ⟨_, rfl, rfl⟩

theorem params_sound {s : Stream} {ps : List Param} {r : Rest s} (h : params s = .ok (ps, r)) :
    ∃ u, ParamList ps u ∧ Reads s u r.val := by
  unfold params at h
  split at h
  · cases h
  · rename_i s₁ h₁ ho
    obtain ⟨o, hok, hr₁⟩ := expect_sound ho (by decide)
    dsimp only at h
    split at h
    · cases h
    · rename_i ps' s₂ h₂ hlist
      split at h
      · cases h
      · rename_i s₃ h₃ hc
        cases h
        obtain ⟨c, hck, hr₃⟩ := expect_sound hc (by decide)
        split at hlist
        · cases hlist
        · cases hlist
          exact ⟨[o, c], .empty hok hck, hr₁.trans hr₃⟩
        · rename_i p s₄ h₄ hp
          split at hlist
          · cases hlist
          · rename_i ps s₅ h₅ hm
            cases hlist
            obtain ⟨u, hu, hr₄⟩ := param?_sound hp
            obtain ⟨v, hv, hr₅, -⟩ := moreParams_sound hm
            exact ⟨o :: u ++ v ++ [c], .cons hok hu hv hck,
              hr₁.trans ((hr₄.trans hr₅).trans hr₃)⟩

theorem params_complete {s s' : Stream} {ps : List Param} {u : List Token} (hp : ParamList ps u)
    (hr : Reads s u s') : ∃ r, params s = .ok (ps, r) ∧ r.val = s' := by
  cases hp with
  | @empty o c ho hc =>
    obtain ⟨rfl, hr₁⟩ := (Reads.cons_iff (by rw [ho]; decide)).1 hr
    obtain ⟨rfl, rfl⟩ := (Reads.single_iff (by rw [hc]; decide)).1 hr₁
    rw [params, expect_of_kind ho]
    simp only [param?_of_kind (by rw [hc]; decide), Rest.self, expect_of_kind hc]
    exact ⟨_, rfl, rfl⟩
  | @cons o c p ps u v ho hu hv hc =>
    obtain ⟨rfl, hr₁⟩ := (Reads.cons_iff (by rw [ho]; decide)).1 hr
    obtain ⟨s₂, hr₂, hr₃⟩ := Reads.split hr₁
    obtain ⟨s₁, hr₄, hr₅⟩ := Reads.split hr₂
    obtain ⟨rfl, rfl⟩ := (Reads.single_iff (by rw [hc]; decide)).1 hr₃
    obtain ⟨⟨s₃, h₃⟩, hpar, rfl⟩ := param?_complete hu hr₄
    obtain ⟨⟨s₄, h₄⟩, hmore, rfl⟩ := moreParams_complete hv hr₅ (by rw [hc]; decide)
    rw [params, expect_of_kind ho]
    simp only [hpar, hmore, expect_of_kind hc]
    exact ⟨_, rfl, rfl⟩

/-! ## Statements -/

theorem declRest_sound {s : Stream} {st : Stmt} {r : Rest s} (h : declRest s = .ok (st, r)) :
    ∃ u, Reads s u r.val ∧ ∀ k : Token, k.kind = .kwVar → StmtPhrase Limits.parser st (k :: u) := by
  unfold declRest at h
  split at h
  · cases h
  · rename_i x s₁ h₁ hx
    split at h
    · cases h
    · rename_i s₂ h₂ hcol
      split at h
      · cases h
      · rename_i ty s₃ h₃ hty
        split at h
        · cases h
        · rename_i s₄ h₄ heq
          split at h
          · cases h
          · rename_i e s₅ h₅ hv
            split at h
            · cases h
            · rename_i s₆ h₆ hsc
              cases h
              obtain ⟨a, ha, hr₁⟩ := expectName_sound hx
              obtain ⟨b, hb, hr₂⟩ := expect_sound hcol (by decide)
              obtain ⟨c, hc, hr₃⟩ := expectName_sound hty
              obtain ⟨q, hq, hr₄⟩ := expect_sound heq (by decide)
              obtain ⟨u, hu, hr₅, -⟩ := expectExpr_sound hv
              obtain ⟨t, ht, hr₆⟩ := expect_sound hsc (by decide)
              exact ⟨a :: b :: c :: q :: u ++ [t],
                hr₁.trans (hr₂.trans (hr₃.trans (hr₄.trans (hr₅.trans hr₆)))),
                fun k hk => .decl hk ha hb hc hq hu ht⟩

theorem retRest_sound {s : Stream} {st : Stmt} {r : Rest s} (h : retRest s = .ok (st, r)) :
    ∃ u, Reads s u r.val ∧ ∀ k : Token, k.kind = .kwReturn →
      StmtPhrase Limits.parser st (k :: u) := by
  unfold retRest at h
  split at h
  · cases h
  · rename_i e r₁ hv
    split at h
    · cases h
    · rename_i s₂ h₂ hsc
      cases h
      obtain ⟨u, hu, hr₁, -⟩ := expectExpr_sound hv
      obtain ⟨t, ht, hr₂⟩ := expect_sound hsc (by decide)
      exact ⟨u ++ [t], hr₁.trans hr₂, fun k hk => .ret hk hu ht⟩

theorem stmt_sound {s : Stream} {st : Stmt} {r : Taken s} (h : stmt s = .ok (st, r)) :
    ∃ u, StmtPhrase Limits.parser st u ∧ Reads s u r.val := by
  unfold stmt at h
  split at h
  · rename_i k s₁ hv
    obtain ⟨hk, hr₁⟩ := Reads.of_accept? hv (by decide)
    split at h
    · cases h
    · rename_i st' s₂ h₂ hd
      cases h
      obtain ⟨u, hr₂, hp⟩ := declRest_sound hd
      exact ⟨k :: u, hp k hk, hr₁.trans hr₂⟩
  · split at h
    · rename_i k s₁ hret
      obtain ⟨hk, hr₁⟩ := Reads.of_accept? hret (by decide)
      split at h
      · cases h
      · rename_i st' s₂ h₂ hd
        cases h
        obtain ⟨u, hr₂, hp⟩ := retRest_sound hd
        exact ⟨k :: u, hp k hk, hr₁.trans hr₂⟩
    · cases h

theorem declRest_complete {s s' : Stream} {st : Stmt} {k : Token} {u : List Token}
    (hp : StmtPhrase Limits.parser st (k :: u)) (hk : k.kind = .kwVar) (hr : Reads s u s') :
    ∃ r, declRest s = .ok (st, r) ∧ r.val = s' := by
  cases hp with
  | @decl k a b c q sc x ty e w _ ha hb hc hq hv hsc =>
    obtain ⟨rfl, hr₁⟩ := (Reads.cons_iff (by rw [ha.1]; decide)).1 hr
    obtain ⟨rfl, hr₂⟩ := (Reads.cons_iff (by rw [hb]; decide)).1 hr₁
    obtain ⟨rfl, hr₃⟩ := (Reads.cons_iff (by rw [hc.1]; decide)).1 hr₂
    obtain ⟨rfl, hr₄⟩ := (Reads.cons_iff (by rw [hq]; decide)).1 hr₃
    obtain ⟨s₅, hr₅, hr₆⟩ := Reads.split hr₄
    obtain ⟨rfl, rfl⟩ := (Reads.single_iff (by rw [hsc]; decide)).1 hr₆
    obtain ⟨⟨s₆, h₆⟩, hx, rfl⟩ :=
      expectExpr_complete .expression hv hr₅ (stops_of_kind (by rw [hsc]; rfl))
    rw [declRest, expectName_of_nameToken ha]
    simp only [expect_of_kind hb, expectName_of_nameToken hc, expect_of_kind hq, hx,
      expect_of_kind hsc]
    exact ⟨_, rfl, rfl⟩
  | ret hk' _ _ =>
    rw [hk] at hk'
    cases hk'

theorem retRest_complete {s s' : Stream} {st : Stmt} {k : Token} {u : List Token}
    (hp : StmtPhrase Limits.parser st (k :: u)) (hk : k.kind = .kwReturn) (hr : Reads s u s') :
    ∃ r, retRest s = .ok (st, r) ∧ r.val = s' := by
  cases hp with
  | decl hk' _ _ _ _ _ _ =>
    rw [hk] at hk'
    cases hk'
  | @ret k sc e w _ hv hsc =>
    obtain ⟨s₁, hr₁, hr₂⟩ := Reads.split hr
    obtain ⟨rfl, rfl⟩ := (Reads.single_iff (by rw [hsc]; decide)).1 hr₂
    obtain ⟨⟨s₂, h₂⟩, hx, rfl⟩ :=
      expectExpr_complete .expression hv hr₁ (stops_of_kind (by rw [hsc]; rfl))
    rw [retRest, hx]
    simp only [expect_of_kind hsc]
    exact ⟨_, rfl, rfl⟩

theorem stmt_complete {s s' : Stream} {st : Stmt} {u : List Token}
    (hp : StmtPhrase Limits.parser st u) (hr : Reads s u s') :
    ∃ r, stmt s = .ok (st, r) ∧ r.val = s' := by
  obtain ⟨k, w, rfl, hk⟩ := hp.eq_cons
  have hend : k.kind ≠ .endOfFile := by rcases hk with hk | hk <;> rw [hk] <;> decide
  obtain ⟨rfl, hr₁⟩ := (Reads.cons_iff hend).1 hr
  rw [stmt]
  rcases hk with hk | hk
  · obtain ⟨⟨s₁, h₁⟩, hd, rfl⟩ := declRest_complete hp hk hr₁
    split
    · rename_i t s₂ hv
      obtain ⟨-, -, rfl⟩ := accept?_eq_some.1 hv
      simp only [hd]
      exact ⟨_, rfl, rfl⟩
    · rename_i hv
      exact absurd hk (accept?_eq_none.1 hv)
  · obtain ⟨⟨s₁, h₁⟩, hd, rfl⟩ := retRest_complete hp hk hr₁
    split
    · rename_i t s₂ hv
      exact absurd (accept?_eq_some.1 hv).1 (by rw [hk]; decide)
    · split
      · rename_i t s₂ hret
        obtain ⟨-, -, rfl⟩ := accept?_eq_some.1 hret
        simp only [hd]
        exact ⟨_, rfl, rfl⟩
      · rename_i hret
        exact absurd hk (accept?_eq_none.1 hret)

theorem stmts_sound {s : Stream} :
    ∀ {sts : List Stmt} {r : Rest s}, stmts s = .ok (sts, r) →
      ∃ u c, Star (StmtPhrase Limits.parser) sts u ∧ c.kind = .closeBrace ∧
        Reads s (u ++ [c]) r.val := by
  fun_induction stmts s with
  | case1 s c s₁ hc =>
    intro sts r h
    cases h
    obtain ⟨hk, hr⟩ := Reads.of_accept? hc (by decide)
    exact ⟨[], c, .nil, hk, hr⟩
  | case2 | case3 | case4 => intro _ _ h; cases h
  | case5 s _ _ st s₁ h₁ hst sts s₂ h₂ hsts ih =>
    intro sts' r h
    cases h
    obtain ⟨u, hu, hr₁⟩ := stmt_sound hst
    obtain ⟨v, c, hv, hc, hr₂⟩ := ih hsts
    refine ⟨u ++ v, c, .cons hu hv, hc, ?_⟩
    rw [List.append_assoc]
    exact hr₁.trans hr₂

theorem stmts_complete {sts : List Stmt} {u : List Token}
    (hp : Star (StmtPhrase Limits.parser) sts u) :
    ∀ {s s' : Stream} {c : Token}, c.kind = .closeBrace → Reads s (u ++ [c]) s' →
      ∃ r, stmts s = .ok (sts, r) ∧ r.val = s' := by
  induction hp with
  | nil =>
    intro s s' c hc hr
    obtain ⟨rfl, rfl⟩ := (Reads.single_iff (by rw [hc]; decide)).1 hr
    rw [stmts]
    split
    · rename_i t s₁ hsome
      obtain ⟨-, -, rfl⟩ := accept?_eq_some.1 hsome
      exact ⟨_, rfl, rfl⟩
    · rename_i hnone
      exact absurd hc (accept?_eq_none.1 hnone)
  | @cons st sts u v hst _ ih =>
    intro s s' c hc hr
    obtain ⟨k, w, rfl, hk⟩ := hst.eq_cons
    rw [List.append_assoc] at hr
    obtain ⟨s₁, hr₁, hr₂⟩ := Reads.split hr
    have hcur : s.current = k := Reads.current_eq_of_cons hr₁
    have hbrace : s.current.kind ≠ .closeBrace := by
      rcases hk with hk | hk <;> rw [hcur, hk] <;> decide
    have hend : s.current.kind ≠ .endOfFile := by
      rcases hk with hk | hk <;> rw [hcur, hk] <;> decide
    obtain ⟨⟨s₂, h₂⟩, hx, rfl⟩ := stmt_complete hst hr₁
    obtain ⟨⟨s₃, h₃⟩, hy, rfl⟩ := ih hc hr₂
    rw [stmts]
    split
    · rename_i t s₄ hsome
      exact absurd (accept?_eq_some.1 hsome).1 hbrace
    · rw [if_neg (by simp [hasEnded_eq_false hend])]
      simp only [hx, hy]
      exact ⟨_, rfl, rfl⟩

theorem body_sound {s : Stream} {sts : List Stmt} {r : Rest s} (h : body s = .ok (sts, r)) :
    ∃ u, BlockPhrase Limits.parser sts u ∧ Reads s u r.val := by
  unfold body at h
  split at h
  · cases h
  · rename_i r₁ ho
    split at h
    · cases h
    · rename_i sts' s₂ h₂ hs
      cases h
      obtain ⟨o, hok, hr₁⟩ := expect_sound ho (by decide)
      obtain ⟨u, c, hu, hc, hr₂⟩ := stmts_sound hs
      exact ⟨o :: u ++ [c], .mk hok hu hc, hr₁.trans hr₂⟩

theorem body_complete {s s' : Stream} {sts : List Stmt} {u : List Token}
    (hp : BlockPhrase Limits.parser sts u) (hr : Reads s u s') :
    ∃ r, body s = .ok (sts, r) ∧ r.val = s' := by
  cases hp with
  | @mk o c sts u ho hu hc =>
    obtain ⟨rfl, hr₁⟩ := (Reads.cons_iff (by rw [ho]; decide)).1 hr
    obtain ⟨⟨s₁, h₁⟩, hs, rfl⟩ := stmts_complete hu hc hr₁
    rw [body, expect_of_kind ho]
    simp only [hs]
    exact ⟨_, rfl, rfl⟩

/-! ## Functions -/

theorem functionRest_sound {s : Stream} {f : FunctionDef} {r : Rest s}
    (h : functionRest s = .ok (f, r)) :
    ∃ u, Reads s u r.val ∧
      ∀ k : Token, k.kind = .kwFunction → FunctionPhrase Limits.parser f (k :: u) := by
  unfold functionRest at h
  split at h
  · cases h
  · rename_i x s₁ h₁ hx
    split at h
    · cases h
    · rename_i ps s₂ h₂ hps
      split at h
      · cases h
      · rename_i s₃ h₃ hcol
        split at h
        · cases h
        · rename_i ty s₄ h₄ hty
          split at h
          · cases h
          · rename_i sts s₅ h₅ hb
            cases h
            obtain ⟨a, ha, hr₁⟩ := expectName_sound hx
            obtain ⟨u, hu, hr₂⟩ := params_sound hps
            obtain ⟨c, hc, hr₃⟩ := expect_sound hcol (by decide)
            obtain ⟨t, ht, hr₄⟩ := expectName_sound hty
            obtain ⟨v, hv, hr₅⟩ := body_sound hb
            exact ⟨a :: u ++ c :: t :: v, hr₁.trans (hr₂.trans (hr₃.trans (hr₄.trans hr₅))),
              fun k hk => .mk hk ha hu hc ht hv⟩

theorem functionRest_complete {s s' : Stream} {f : FunctionDef} {k : Token} {u : List Token}
    (hp : FunctionPhrase Limits.parser f (k :: u)) (hr : Reads s u s') :
    ∃ r, functionRest s = .ok (f, r) ∧ r.val = s' := by
  cases hp with
  | @mk k a c t x ty ps sts u v _ ha hu hc ht hv =>
    obtain ⟨rfl, hr₁⟩ := (Reads.cons_iff (by rw [ha.1]; decide)).1 hr
    obtain ⟨s₂, hr₂, hr₃⟩ := Reads.split hr₁
    obtain ⟨rfl, hr₄⟩ := (Reads.cons_iff (by rw [hc]; decide)).1 hr₃
    obtain ⟨rfl, hr₅⟩ := (Reads.cons_iff (by rw [ht.1]; decide)).1 hr₄
    obtain ⟨⟨s₃, h₃⟩, hps, rfl⟩ := params_complete hu hr₂
    obtain ⟨⟨s₄, h₄⟩, hb, rfl⟩ := body_complete hv hr₅
    rw [functionRest, expectName_of_nameToken ha]
    simp only [hps, expect_of_kind hc, expectName_of_nameToken ht, hb]
    exact ⟨_, rfl, rfl⟩

theorem functions_sound {s : Stream} :
    ∀ {fs : List FunctionDef}, functions s = .ok fs →
      Star (FunctionPhrase Limits.parser) fs s.ahead := by
  fun_induction functions s with
  | case1 s hend =>
    intro fs h
    cases h
    rw [List.isEmpty_iff.1 hend]
    exact .nil
  | case2 | case3 | case4 => intro _ h; cases h
  | case5 s _ k s₁ hf _ f s₂ h₂ hfr fs hfs ih =>
    intro fs' h
    cases h
    obtain ⟨hk, hr₁⟩ := Reads.of_accept? hf (by decide)
    obtain ⟨u, hr₂, hp⟩ := functionRest_sound hfr
    have hahead : s.ahead = (k :: u) ++ s₂.ahead := (hr₁.trans hr₂).1
    rw [hahead]
    exact .cons (hp k hk) (ih hfs)

theorem functions_complete {fs : List FunctionDef} {w : List Token}
    (hp : Star (FunctionPhrase Limits.parser) fs w) :
    ∀ {s : Stream}, s.ahead = w → functions s = .ok fs := by
  induction hp with
  | nil =>
    intro s hs
    rw [functions, if_pos (by simp [hasEnded, hs])]
  | @cons f fs u v hf _ ih =>
    intro s hs
    obtain ⟨k, w, rfl, hk⟩ := hf.eq_cons
    have hcur : s.current = k := by simp [current, hs]
    have hend : s.current.kind ≠ .endOfFile := by rw [hcur, hk]; decide
    have hadv : s.advance.ahead = w ++ v := by
      have h := (ahead_eq_current_cons hend).symm.trans hs
      simp only [List.cons_append, List.cons.injEq] at h
      exact h.2
    obtain ⟨s₁, hr₁, hs₁⟩ := Reads.of_ahead_eq hadv
    obtain ⟨⟨s₂, h₂⟩, hfr, rfl⟩ := functionRest_complete hf hr₁
    rw [functions, if_neg (by simp [hasEnded_eq_false hend])]
    split
    · rename_i hnone
      exact absurd (hcur ▸ hk) (accept?_eq_none.1 hnone)
    · rename_i t s₃ hsome
      obtain ⟨-, -, rfl⟩ := accept?_eq_some.1 hsome
      simp only [hfr, ih hs₁]

end LangFront.Parse

namespace LangFront

open Token Grammar Stream Parse

/-- What the reader returns is derived by the grammar from the tokens before the first end
token. -/
theorem Program.phrase_of_ofTokens {ts : List Token} {t : Program} (h : Program.ofTokens ts = .ok t) :
    ProgramPhrase Limits.parser t (ts.takeWhile fun t => !t.isEnd) := by
  unfold Program.ofTokens Program.ofStream at h
  cases hf : Parse.functions (ofList ts) with
  | error e =>
    rw [hf] at h
    cases h
  | ok fs =>
    rw [hf] at h
    simp only [Except.map, Except.ok.injEq] at h
    subst h
    exact functions_sound hf

/-- A program that the grammar derives from the tokens before the first end token is read. -/
theorem Program.ofTokens_of_phrase {ts : List Token} {t : Program}
    (h : ProgramPhrase Limits.parser t (ts.takeWhile fun t => !t.isEnd)) :
    Program.ofTokens ts = .ok t := by
  unfold Program.ofTokens Program.ofStream
  rw [functions_complete h rfl]
  rfl

/-- The reader accepts exactly the programs of the grammar within the parser's bounds, read from
the tokens that a cursor over the list holds before its first end token; the program it returns
is the one the derivation yields. -/
theorem Program.ofTokens_eq_ok_iff (ts : List Token) (t : Program) :
    Program.ofTokens ts = .ok t ↔
      ProgramPhrase Limits.parser t ((cursorTokens ts).takeWhile fun t => !t.isEnd) := by
  rw [takeWhile_cursorTokens]
  exact ⟨Program.phrase_of_ofTokens, Program.ofTokens_of_phrase⟩

end LangFront
