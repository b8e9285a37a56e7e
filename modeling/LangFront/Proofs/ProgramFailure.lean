import LangFront.Proofs.ExprFailure
import LangFront.Proofs.ProgramParse
/-!
# Where a program reading fails

Every phrase of the program grammar but the expression is closed: it ends with a token of its
own, a parenthesis, a brace, a semicolon or the end token. For a closed phrase `Q` the failure
of a reading says the most it can with one predicate (`FailsIn Q`): the tokens read before the
token the error names start a phrase of `Q`, and no phrase of `Q` agrees with them and that
token, neither one that goes on past it nor one that ends before it.

The statements follow the reader step by step. Where a step fails at its first token, the
phrase's first token is of the wrong kind; where it fails further in, the phrase read so far
is completed with sample tokens, and a rival phrase is taken apart with the lookahead lemmas of
`Lookahead` up to the token where it would have to differ from what was read. The three loops,
of parameters after commas, of statements and of functions, are sequences closed by a token
that starts no phrase of theirs (`Closed`), and share their lemmas.
-/

namespace LangFront.Parse

open Token Grammar Stream

/-- A reading of a closed phrase of `Q` failed with `e` at the first token that no phrase of
`Q` can read. -/
def FailsIn (Q : List Token → Prop) (s : Stream) (e : ParseError) : Prop :=
  FailsAt Q (fun w _ => Q w) s e

/-- A name token, to complete a phrase with. -/
def nameToken : Token := Token.ofName "x" default

theorem nameToken_name : NameToken nameToken "x" := ⟨rfl, rfl⟩

theorem valuePhrase_numberToken : ValuePhrase Limits.parser (.lit 0) [numberToken] :=
  ⟨(numberToken_factor (by decide)).term_of_factor.expr_of_term, by decide⟩

/-! ## Closed sequences -/

/-- Phrases of `P` one after another, closed by a token of `T`. -/
def Closed {α : Type} (P : α → List Token → Prop) (T : Token → Prop) (w : List Token) : Prop :=
  ∃ as v c, Star P as v ∧ T c ∧ w = v ++ [c]

section
variable {α : Type} {P Q : α → List Token → Prop} {T : Token → Prop}

theorem Closed.single {c : Token} (hc : T c) : Closed P T [c] := ⟨[], [], c, .nil, hc, rfl⟩

theorem Closed.cons {a : α} {u w : List Token} (ha : P a u) (hw : Closed P T w) :
    Closed P T (u ++ w) := by
  obtain ⟨as, v, c, hv, hc, rfl⟩ := hw
  exact ⟨a :: as, u ++ v, c, .cons ha hv, hc, by rw [List.append_assoc]⟩

theorem Closed.mono (hPQ : ∀ a u, P a u → Q a u) {w : List Token} (hw : Closed P T w) :
    Closed Q T w := by
  obtain ⟨as, v, c, hv, hc, rfl⟩ := hw
  exact ⟨as, v, c, hv.mono hPQ, hc, rfl⟩

theorem Closed.cons_inv {w r z : List Token} {t : Token} (hw : Closed P T w)
    (heq : w ++ r = t :: z) (ht : ¬ T t) : ∃ a u w', P a u ∧ Closed P T w' ∧ w = u ++ w' := by
  obtain ⟨as, v, c, hv, hc, rfl⟩ := hw
  cases hv with
  | nil =>
    simp only [List.nil_append, List.singleton_append, List.cons.injEq] at heq
    exact absurd (heq.1 ▸ hc) ht
  | @cons a as u v ha hv =>
    exact ⟨a, u, v ++ [c], ha, ⟨as, v, c, hv, hc, rfl⟩, by rw [List.append_assoc]⟩

theorem Closed.rest {P' : α → List Token → Prop}
    (hP : ∀ {a₁ a₂ w₁ w₂ r₁ r₂}, P a₁ w₁ → P' a₂ w₂ → w₁ ++ r₁ = w₂ ++ r₂ → w₁ = w₂ ∧ a₁ = a₂)
    {a : α} {t : Token} {u w r z : List Token} (hw : Closed P T w) (ht : ¬ T t)
    (ha : P' a (t :: u)) (heq : w ++ r = (t :: u) ++ z) : ∃ w', Closed P T w' ∧ w' ++ r = z := by
  obtain ⟨a', u', w', ha', hw', rfl⟩ := hw.cons_inv (show w ++ r = t :: (u ++ z) by simpa using heq) ht
  have heq' : u' ++ (w' ++ r) = (t :: u) ++ z := by simpa using heq
  obtain ⟨rfl, -⟩ := hP ha' ha heq'
  exact ⟨w', hw', List.append_cancel_left heq'⟩

theorem Closed.not_start {S : Token → Prop} (hS : ∀ {a u}, P a u → ∃ t' u', u = t' :: u' ∧ S t')
    {w r y : List Token} {t : Token} (hw : Closed P T w) (hT : ¬ T t) (hSt : ¬ S t) :
    w ++ r ≠ t :: y := by
  intro heq
  obtain ⟨a, u, w', ha, -, rfl⟩ := hw.cons_inv heq hT
  obtain ⟨t', u', rfl, ht'⟩ := hS ha
  simp only [List.cons_append, List.append_assoc, List.cons.injEq] at heq
  exact hSt (heq.1 ▸ ht')

end

/-! ## Single tokens -/

theorem expect_error {k : Kind} {rs : Reason} {s : Stream} {e : ParseError}
    (h : expect k rs s = .error e) : e.found = s.current ∧ s.current.kind ≠ k := by
  unfold expect at h
  split at h
  · cases h
  · rename_i hk
    cases h
    exact ⟨rfl, accept?_eq_none.1 hk⟩

theorem expectName_error {rs : Reason} {s : Stream} {e : ParseError}
    (h : expectName rs s = .error e) : e.found = s.current ∧ ∀ x, ¬ NameToken s.current x := by
  unfold expectName at h
  split at h
  · rename_i e' hx
    cases h
    obtain ⟨hf, -, hnone⟩ := name?_error hx
    refine ⟨hf, fun x hx' => ?_⟩
    rw [hx'.2] at hnone
    cases hnone
  · rename_i hx
    cases h
    exact ⟨rfl, fun x hx' => name?_none hx hx'.1⟩
  · cases h

theorem param?_error_kind {s : Stream} {e : ParseError} (h : param? s = .error e) :
    s.current.kind = .identifier := by
  unfold param? at h
  split at h
  · rename_i e' hx
    exact (name?_error hx).2.1
  · cases h
  · rename_i x s₁ h₁ hx
    exact (name?_eq_some hx).1.1

/-! ## Parameters -/

theorem param?_fails {s : Stream} {e : ParseError} (h : param? s = .error e) :
    FailsIn (fun w => ∃ p, ParamPhrase p w) s e := by
  unfold param? at h
  split at h
  · rename_i e' hx
    cases h
    obtain ⟨hf, -, hnone⟩ := name?_error hx
    refine FailsAt.here hf ⟨_, _, .mk nameToken_name (kindToken_kind _) nameToken_name⟩ ?_
    rintro w r y ⟨p, ⟨ha, -, -⟩⟩ heq
    simp only [List.cons_append, List.cons.injEq] at heq
    rw [heq.1] at ha
    rw [ha.2] at hnone
    cases hnone
  · cases h
  · rename_i x s₁ h₁ hx
    obtain ⟨hname, hr₁⟩ := name?_eq_some hx
    split at h
    · rename_i e' hc
      cases h
      obtain ⟨hf, hk⟩ := expect_error hc
      refine ⟨[s.current], s₁, hr₁, hf, ⟨_, _, .mk hname (kindToken_kind _) nameToken_name⟩, ?_⟩
      rintro w r y ⟨p, ⟨-, hb, -⟩⟩ heq
      simp only [List.cons_append, List.nil_append, List.cons.injEq] at heq
      exact hk (heq.2.1 ▸ hb)
    · rename_i s₂ h₂ hc
      obtain ⟨c, hck, hr₂⟩ := expect_sound hc (by decide)
      split at h
      · rename_i e' ht
        cases h
        obtain ⟨hf, hn⟩ := expectName_error ht
        refine ⟨[s.current, c], s₂, hr₁.trans hr₂, hf,
          ⟨_, _, .mk hname hck nameToken_name⟩, ?_⟩
        rintro w r y ⟨p, ⟨-, -, hc'⟩⟩ heq
        simp only [List.cons_append, List.nil_append, List.cons.injEq] at heq
        exact hn _ (heq.2.2.1 ▸ hc')
      · cases h

theorem paramList_head {ps : List Param} {w : List Token} (h : ParamList ps w) :
    ∃ o w', w = o :: w' ∧ o.kind = .openParen := by
  cases h with
  | empty ho _ => exact ⟨_, _, rfl, ho⟩
  | cons ho _ _ _ => exact ⟨_, _, rfl, ho⟩

theorem paramList_cons_inv {ps : List Param} {o a : Token} {w r z : List Token}
    (h : ParamList ps w) (heq : w ++ r = o :: a :: z) (ha : a.kind = .identifier) :
    ∃ p ps' u v c, ParamPhrase p u ∧ Star CommaParam ps' v ∧ c.kind = .closeParen ∧
      a :: z = u ++ (v ++ c :: r) := by
  cases h with
  | empty _ hc =>
    simp only [List.cons_append, List.nil_append, List.cons.injEq] at heq
    exact absurd (hc.symm.trans (heq.2.1 ▸ ha)) (by decide)
  | cons _ hp hv hc =>
    simp only [List.cons_append, List.append_assoc, List.cons.injEq] at heq
    exact ⟨_, _, _, _, _, hp, hv, hc, heq.2.symm⟩

/-- Parameters after commas, up to the closing parenthesis. -/
def MoreParams : List Token → Prop := Closed CommaParam fun c => c.kind = .closeParen

theorem moreParams_fails {s : Stream} :
    ∀ {e : ParseError}, moreParams s = .error e → FailsIn MoreParams s e := by
  fun_induction moreParams s with
  | case1 => intro _ h; cases h
  | case2 s t s₁ hc h₁ e' hp =>
    intro e h
    cases h
    obtain ⟨hk, hr₁⟩ := Reads.of_accept? hc (by decide)
    refine FailsAt.after hr₁ (param?_fails hp) ?_ ?_
    · rintro x ⟨p, hx⟩
      exact ⟨[kindToken .closeParen], Closed.cons (.mk hk hx) (Closed.single (kindToken_kind _))⟩
    · rintro w r z hw heq -
      obtain ⟨p, u, w', hu, -, rfl⟩ := hw.cons_inv heq (by rw [hk]; decide)
      cases hu with
      | mk _ hp' =>
        simp only [List.cons_append, List.append_assoc, List.nil_append, List.cons.injEq] at heq
        exact ⟨_, _, ⟨_, hp'⟩, heq.2⟩
  | case3 s t s₁ hc h₁ hp =>
    intro e h
    cases h
    obtain ⟨hk, hr₁⟩ := Reads.of_accept? hc (by decide)
    have hid := kind_of_param?_none hp
    have hV : MoreParams ([t, nameToken, kindToken .colon, nameToken] ++ [kindToken .closeParen]) :=
      Closed.cons (.mk hk (.mk nameToken_name (kindToken_kind _) nameToken_name))
        (Closed.single (kindToken_kind _))
    refine ⟨[t], s₁, hr₁, rfl, ⟨_, hV⟩, ?_⟩
    intro w r y hw heq
    obtain ⟨p, u, w', hu, -, rfl⟩ := hw.cons_inv heq (by rw [hk]; decide)
    cases hu with
    | mk _ hp' =>
      obtain ⟨a, u', rfl, ha⟩ := hp'.head
      simp only [List.cons_append, List.append_assoc, List.nil_append, List.cons.injEq] at heq
      exact hid (heq.2.1 ▸ ha)
  | case4 s t s₁ hc h₁ p s₂ h₂ hp e' hm ih =>
    intro e h
    cases h
    obtain ⟨hk, hr₁⟩ := Reads.of_accept? hc (by decide)
    obtain ⟨u, hu, hr₂⟩ := param?_sound hp
    refine FailsAt.after (hr₁.trans hr₂) (ih hm) ?_ ?_
    · intro x hx
      have hV : MoreParams (t :: u ++ x) := Closed.cons (.mk hk hu) hx
      exact ⟨[], by simpa using hV⟩
    · rintro w r z hw heq -
      obtain ⟨w', hw', hz⟩ :=
        hw.rest CommaParam.unique (by rw [hk]; decide) (.mk hk hu) (by simpa using heq)
      exact ⟨w', r, hw', hz⟩
  | case5 => intro _ h; cases h

theorem params_fails {s : Stream} {e : ParseError} (h : params s = .error e) :
    FailsIn (fun w => ∃ ps, ParamList ps w) s e := by
  unfold params at h
  split at h
  · rename_i e' ho
    cases h
    obtain ⟨hf, hk⟩ := expect_error ho
    refine FailsAt.here hf ⟨_, [], .empty (kindToken_kind _) (kindToken_kind _)⟩ ?_
    rintro w r y ⟨ps, hps⟩ heq
    obtain ⟨o, w', rfl, ho'⟩ := paramList_head hps
    simp only [List.cons_append, List.cons.injEq] at heq
    exact hk (heq.1 ▸ ho')
  · rename_i s₁ h₁ ho
    obtain ⟨o, hok, hr₁⟩ := expect_sound ho (by decide)
    dsimp only at h
    split at h
    · rename_i e' hlist
      cases h
      split at hlist
      · rename_i e' hp
        cases hlist
        have hid := param?_error_kind hp
        refine FailsAt.after hr₁ (param?_fails hp) ?_ ?_
        · rintro x ⟨p, hx⟩
          have hV : ParamList [p] (o :: x ++ [] ++ [kindToken .closeParen]) :=
            .cons hok hx .nil (kindToken_kind _)
          exact ⟨[kindToken .closeParen], _, by simpa using hV⟩
        · rintro w r z ⟨ps, hps⟩ heq hz
          obtain ⟨z', rfl⟩ := List.head?_eq_some_iff.1 hz
          obtain ⟨p, ps', u, v, c, hp', -, -, hz'⟩ := paramList_cons_inv hps heq hid
          exact ⟨u, v ++ c :: r, ⟨p, hp'⟩, hz'.symm⟩
      · cases hlist
      · rename_i p s₂ h₂ hp
        obtain ⟨u, hu, hr₂⟩ := param?_sound hp
        split at hlist
        · rename_i e' hm
          cases hlist
          refine FailsAt.after (hr₁.trans hr₂) (moreParams_fails hm) ?_ ?_
          · rintro x ⟨ps, v, c, hv, hc, rfl⟩
            exact ⟨[], _, by simpa using ParamList.cons hok hu hv hc⟩
          · rintro w r z ⟨ps, hps⟩ heq -
            obtain ⟨a, u', rfl, ha⟩ := hu.head
            obtain ⟨p', ps', u'', v, c', hp', hv, hc, hz⟩ :=
              paramList_cons_inv hps (show w ++ r = o :: a :: (u' ++ z) by simpa using heq) ha
            have heq' : u'' ++ (v ++ c' :: r) = (a :: u') ++ z := hz.symm
            obtain ⟨rfl, -⟩ := hp'.unique hu heq'
            exact ⟨v ++ [c'], r, ⟨ps', v, c', hv, hc, rfl⟩,
              by simpa using List.append_cancel_left heq'⟩
        · cases hlist
    · rename_i ps s₂ h₂ hlist
      split at h
      · rename_i e' hc
        cases h
        obtain ⟨hf, hk⟩ := expect_error hc
        split at hlist
        · cases hlist
        · rename_i hp
          cases hlist
          have hid := kind_of_param?_none hp
          refine ⟨[o], s₁, hr₁, hf, ⟨_, _, .empty hok (kindToken_kind _)⟩, ?_⟩
          rintro w r y ⟨ps, hps⟩ heq
          cases hps with
          | empty _ hc' =>
            simp only [List.cons_append, List.nil_append, List.cons.injEq] at heq
            exact hk (heq.2.1 ▸ hc')
          | cons _ hp' _ _ =>
            obtain ⟨a, u', rfl, ha⟩ := hp'.head
            simp only [List.cons_append, List.nil_append, List.cons.injEq] at heq
            exact hid (heq.2.1 ▸ ha)
        · rename_i p s₃ h₃ hp
          split at hlist
          · cases hlist
          · rename_i ps' s₄ h₄ hm
            cases hlist
            obtain ⟨u, hu, hr₃⟩ := param?_sound hp
            obtain ⟨v, hv, hr₄, hend⟩ := moreParams_sound hm
            refine ⟨o :: u ++ v, s₂, hr₁.trans (hr₃.trans hr₄), hf,
              ⟨_, _, by simpa using ParamList.cons hok hu hv (kindToken_kind _)⟩, ?_⟩
            rintro w r y ⟨ps, hps⟩ heq
            obtain ⟨a, u', rfl, ha⟩ := hu.head
            obtain ⟨p', ps'', u'', v', c', hp', hv', hc', hz⟩ := paramList_cons_inv hps
              (show w ++ r = o :: a :: (u' ++ (v ++ s₂.current :: y)) by simpa using heq) ha
            have heq' : u'' ++ (v' ++ c' :: r) = (a :: u') ++ (v ++ s₂.current :: y) := hz.symm
            obtain ⟨rfl, -⟩ := hp'.unique hu heq'
            have heq'' := List.append_cancel_left heq'
            obtain ⟨rfl, -⟩ := CommaParam.star_unique hv' hv heq''
              (not_comma_of_closeParen hc' r) (by simpa using hend)
            simp only [List.append_cancel_left_eq, List.cons.injEq] at heq''
            exact hk (heq''.1 ▸ hc')
      · cases h

/-! ## Statements -/

theorem declPhrase_inv {L : Limits} {st : Stmt} {k : Token} {w : List Token}
    (h : StmtPhrase L st (k :: w)) (hk : k.kind = .kwVar) :
    ∃ a b c q u sc x ty v, w = a :: b :: c :: q :: u ++ [sc] ∧ NameToken a x ∧
      b.kind = .colon ∧ NameToken c ty ∧ q.kind = .equals ∧ ValuePhrase L v u ∧
      sc.kind = .semicolon := by
  cases h with
  | decl _ ha hb hc hq hv hsc => exact ⟨_, _, _, _, _, _, _, _, _, rfl, ha, hb, hc, hq, hv, hsc⟩
  | ret hk' => exact absurd (hk.symm.trans hk') (by decide)

theorem retPhrase_inv {L : Limits} {st : Stmt} {k : Token} {w : List Token}
    (h : StmtPhrase L st (k :: w)) (hk : k.kind = .kwReturn) :
    ∃ u sc v, w = u ++ [sc] ∧ ValuePhrase L v u ∧ sc.kind = .semicolon := by
  cases h with
  | decl hk' => exact absurd (hk.symm.trans hk') (by decide)
  | ret _ hv hsc => exact ⟨_, _, _, rfl, hv, hsc⟩

theorem stmtPhrase_of_keyword {L : Limits} {st : Stmt} {k k' : Token} {w : List Token}
    (h : StmtPhrase L st (k :: w)) (hk : k'.kind = k.kind) : StmtPhrase L st (k' :: w) := by
  cases h with
  | decl hk₀ ha hb hc hq hv hsc => exact .decl (hk.trans hk₀) ha hb hc hq hv hsc
  | ret hk₀ hv hsc => exact .ret (hk.trans hk₀) hv hsc

theorem stops_semicolon {sc : Token} (hsc : sc.kind = .semicolon) (r : List Token) :
    ∀ t ∈ (sc :: r).head?, Stops 0 t :=
  stops_cons (by rw [hsc]; rfl) r

theorem semicolon_eq_of_value {L L' : Limits} {v v' : Expr} {u u' r y : List Token}
    {sc t : Token} (hv' : ValuePhrase L' v' u') (hv : ValuePhrase L v u)
    (hsc : sc.kind = .semicolon) (ht : Stops 0 t) (heq : u' ++ sc :: r = u ++ t :: y) :
    sc = t := by
  obtain ⟨rfl, -⟩ :=
    Derives.unique hv'.1 hv.1 heq (stops_semicolon hsc r) (by simpa [Sym.Follows] using ht)
  simp only [List.append_cancel_left_eq, List.cons.injEq] at heq
  exact heq.1

theorem valuePhrase_of_derives {v : Expr} {u : List Token} (h : Derives maxOpen .expr 1 v u) :
    ValuePhrase ⟨maxOpen, v.height⟩ v u :=
  ⟨h, Nat.le_refl _⟩

theorem declRest_fails {s : Stream} {e : ParseError} (h : declRest s = .error e)
    (hd : e.reason ≠ .tooDeep) :
    FailsIn (fun w => ∃ k L st, k.kind = .kwVar ∧ StmtPhrase L st (k :: w)) s e := by
  unfold declRest at h
  split at h
  · rename_i e' hx
    cases h
    obtain ⟨hf, hn⟩ := expectName_error hx
    refine FailsAt.here hf ⟨_, _, _, _, kindToken_kind .kwVar, .decl (kindToken_kind _)
      nameToken_name (kindToken_kind _) nameToken_name (kindToken_kind .equals)
      valuePhrase_numberToken (kindToken_kind .semicolon)⟩ ?_
    rintro w r y ⟨k, L, st, hk, hst⟩ heq
    obtain ⟨a, b, c, q, u, sc, x, ty, v, rfl, ha, -⟩ := declPhrase_inv hst hk
    simp only [List.cons_append, List.cons.injEq] at heq
    exact hn _ (heq.1 ▸ ha)
  · rename_i x s₁ h₁ hx
    obtain ⟨a, ha, hr₁⟩ := expectName_sound hx
    split at h
    · rename_i e' hcol
      cases h
      obtain ⟨hf, hk⟩ := expect_error hcol
      refine ⟨[a], s₁, hr₁, hf, ⟨_, _, _, _, kindToken_kind .kwVar, .decl (kindToken_kind _)
        ha (kindToken_kind .colon) nameToken_name (kindToken_kind .equals)
        valuePhrase_numberToken (kindToken_kind .semicolon)⟩, ?_⟩
      rintro w r y ⟨k, L, st, hk', hst⟩ heq
      obtain ⟨a', b, c, q, u, sc, x', ty, v, rfl, -, hb, -⟩ := declPhrase_inv hst hk'
      simp only [List.cons_append, List.nil_append, List.cons.injEq] at heq
      exact hk (heq.2.1 ▸ hb)
    · rename_i s₂ h₂ hcol
      obtain ⟨b, hb, hr₂⟩ := expect_sound hcol (by decide)
      split at h
      · rename_i e' hty
        cases h
        obtain ⟨hf, hn⟩ := expectName_error hty
        refine ⟨[a, b], s₂, hr₁.trans hr₂, hf, ⟨_, _, _, _, kindToken_kind .kwVar,
          .decl (kindToken_kind _) ha hb nameToken_name (kindToken_kind .equals)
          valuePhrase_numberToken (kindToken_kind .semicolon)⟩, ?_⟩
        rintro w r y ⟨k, L, st, hk', hst⟩ heq
        obtain ⟨a', b', c, q, u, sc, x', ty, v, rfl, -, -, hc, -⟩ := declPhrase_inv hst hk'
        simp only [List.cons_append, List.nil_append, List.cons.injEq] at heq
        exact hn _ (heq.2.2.1 ▸ hc)
      · rename_i ty s₃ h₃ hty
        obtain ⟨c, hc, hr₃⟩ := expectName_sound hty
        split at h
        · rename_i e' heqs
          cases h
          obtain ⟨hf, hk⟩ := expect_error heqs
          refine ⟨[a, b, c], s₃, hr₁.trans (hr₂.trans hr₃), hf, ⟨_, _, _, _,
            kindToken_kind .kwVar, .decl (kindToken_kind _) ha hb hc (kindToken_kind .equals)
            valuePhrase_numberToken (kindToken_kind .semicolon)⟩, ?_⟩
          rintro w r y ⟨k, L, st, hk', hst⟩ heq
          obtain ⟨a', b', c', q, u, sc, x', ty', v, rfl, -, -, -, hq, -⟩ :=
            declPhrase_inv hst hk'
          simp only [List.cons_append, List.nil_append, List.cons.injEq] at heq
          exact hk (heq.2.2.2.1 ▸ hq)
        · rename_i s₄ h₄ heqs
          obtain ⟨q, hq, hr₄⟩ := expect_sound heqs (by decide)
          have hr₁₄ : Reads s [a, b, c, q] s₄ := hr₁.trans (hr₂.trans (hr₃.trans hr₄))
          split at h
          · rename_i e' hv
            cases h
            refine FailsAt.after hr₁₄ (expectExpr_fails hv hd) ?_ ?_
            · rintro x ⟨v, hx⟩
              exact ⟨[kindToken .semicolon], _, _, _, kindToken_kind .kwVar,
                .decl (kindToken_kind _) ha hb hc hq (valuePhrase_of_derives hx)
                  (kindToken_kind _)⟩
            · rintro w r z ⟨k, L, st, hk', hst⟩ heq -
              obtain ⟨a', b', c', q', u, sc, x', ty', v, rfl, -, -, -, -, hv', hsc⟩ :=
                declPhrase_inv hst hk'
              simp only [List.cons_append, List.append_assoc, List.nil_append,
                List.cons.injEq] at heq
              exact ⟨u, sc :: r, ⟨⟨_, _, _, hv'.1⟩, stops_semicolon hsc r⟩, heq.2.2.2.2⟩
          · rename_i v s₅ h₅ hv
            obtain ⟨u, hu, hr₅, hend⟩ := expectExpr_sound hv
            split at h
            · rename_i e' hsc
              cases h
              obtain ⟨hf, hk⟩ := expect_error hsc
              refine ⟨[a, b, c, q] ++ u, s₅, hr₁₄.trans hr₅, hf, ⟨_, _, _, _,
                kindToken_kind .kwVar, .decl (kindToken_kind _) ha hb hc hq hu
                (kindToken_kind .semicolon)⟩, ?_⟩
              rintro w r y ⟨k, L, st, hk', hst⟩ heq
              obtain ⟨a', b', c', q', u', sc, x', ty', v', rfl, -, -, -, -, hv', hsc'⟩ :=
                declPhrase_inv hst hk'
              simp only [List.cons_append, List.append_assoc, List.nil_append,
                List.cons.injEq] at heq
              exact hk (semicolon_eq_of_value hv' hu hsc' hend heq.2.2.2.2 ▸ hsc')
            · cases h

theorem retRest_fails {s : Stream} {e : ParseError} (h : retRest s = .error e)
    (hd : e.reason ≠ .tooDeep) :
    FailsIn (fun w => ∃ k L st, k.kind = .kwReturn ∧ StmtPhrase L st (k :: w)) s e := by
  unfold retRest at h
  split at h
  · rename_i e' hv
    cases h
    refine FailsAt.after (Reads.refl s) (expectExpr_fails hv hd) ?_ ?_
    · rintro x ⟨v, hx⟩
      have hV := StmtPhrase.ret (kindToken_kind .kwReturn) (valuePhrase_of_derives hx)
        (kindToken_kind .semicolon)
      exact ⟨[kindToken .semicolon], _, _, _, kindToken_kind .kwReturn, by simpa using hV⟩
    · rintro w r z ⟨k, L, st, hk, hst⟩ heq -
      obtain ⟨u, sc, v, rfl, hv', hsc⟩ := retPhrase_inv hst hk
      exact ⟨u, sc :: r, ⟨⟨_, _, _, hv'.1⟩, stops_semicolon hsc r⟩, by simpa using heq⟩
  · rename_i v r₁ hv
    obtain ⟨u, hu, hr₁, hend⟩ := expectExpr_sound hv
    split at h
    · rename_i e' hsc
      cases h
      obtain ⟨hf, hk⟩ := expect_error hsc
      refine ⟨u, r₁.val, hr₁, hf, ⟨_, _, _, _, kindToken_kind .kwReturn,
        .ret (kindToken_kind _) hu (kindToken_kind .semicolon)⟩, ?_⟩
      rintro w r y ⟨k, L, st, hk', hst⟩ heq
      obtain ⟨u', sc, v', rfl, hv', hsc'⟩ := retPhrase_inv hst hk'
      exact hk (semicolon_eq_of_value hv' hu hsc' hend (by simpa using heq) ▸ hsc')
    · cases h

theorem stmt_fails {s : Stream} {e : ParseError} (h : stmt s = .error e)
    (hd : e.reason ≠ .tooDeep) : FailsIn (fun w => ∃ L st, StmtPhrase L st w) s e := by
  have hkey : ∀ {k : Token} {kd : Kind} {w r z : List Token}, k.kind = kd →
      (∃ L st, StmtPhrase L st w) → w ++ r = [k] ++ z →
      ∃ w' r', (∃ k L st, k.kind = kd ∧ StmtPhrase L st (k :: w')) ∧ w' ++ r' = z := by
    rintro k kd w r z hk ⟨L, st, hw⟩ heq
    obtain ⟨k', w', rfl, -⟩ := hw.eq_cons
    simp only [List.cons_append, List.nil_append, List.cons.injEq] at heq
    exact ⟨w', r, ⟨k', L, st, heq.1 ▸ hk, hw⟩, heq.2⟩
  unfold stmt at h
  split at h
  · rename_i k s₁ hv
    obtain ⟨hk, hr₁⟩ := Reads.of_accept? hv (by decide)
    split at h
    · rename_i e' hdecl
      cases h
      refine FailsAt.after hr₁ (declRest_fails hdecl hd) ?_ ?_
      · rintro x ⟨k', L, st, hk', hx⟩
        exact ⟨[], L, st, by simpa using stmtPhrase_of_keyword hx (hk.trans hk'.symm)⟩
      · rintro w r z hw heq -
        exact hkey hk hw heq
    · cases h
  · rename_i hv
    split at h
    · rename_i k s₁ hret
      obtain ⟨hk, hr₁⟩ := Reads.of_accept? hret (by decide)
      split at h
      · rename_i e' hr
        cases h
        refine FailsAt.after hr₁ (retRest_fails hr hd) ?_ ?_
        · rintro x ⟨k', L, st, hk', hx⟩
          exact ⟨[], L, st, by simpa using stmtPhrase_of_keyword hx (hk.trans hk'.symm)⟩
        · rintro w r z hw heq -
          exact hkey hk hw heq
      · cases h
    · rename_i hret
      cases h
      refine FailsAt.here rfl ⟨_, _, _, .ret (kindToken_kind .kwReturn) valuePhrase_numberToken
        (kindToken_kind .semicolon)⟩ ?_
      rintro w r y ⟨L, st, hw⟩ heq
      obtain ⟨k, w', rfl, hk⟩ := hw.eq_cons
      simp only [List.cons_append, List.cons.injEq] at heq
      rcases hk with hk | hk
      · exact accept?_eq_none.1 hv (heq.1 ▸ hk)
      · exact accept?_eq_none.1 hret (heq.1 ▸ hk)

/-- Statements up to the closing brace of a body. -/
def Stmts (w : List Token) : Prop := ∃ L, Closed (StmtPhrase L) (fun c => c.kind = .closeBrace) w

theorem not_closeBrace_of_stmt {L : Limits} {st : Stmt} {k : Token} {w : List Token}
    (h : StmtPhrase L st (k :: w)) : k.kind ≠ .closeBrace := by
  obtain ⟨k', w', heq, hk⟩ := h.eq_cons
  rw [List.cons.injEq] at heq
  rcases hk with hk | hk <;> rw [heq.1, hk] <;> decide

theorem stmts_fails {s : Stream} :
    ∀ {e : ParseError}, stmts s = .error e → e.reason ≠ .tooDeep → FailsIn Stmts s e := by
  fun_induction stmts s with
  | case1 => intro _ h; cases h
  | case2 s hc hend =>
    intro e h hd
    cases h
    have hk : s.current.kind = .endOfFile := by
      rw [hasEnded_eq_current_isEnd] at hend
      simpa [Token.isEnd] using hend
    refine FailsAt.here rfl ⟨_, Limits.parser, Closed.single (kindToken_kind .closeBrace)⟩ ?_
    rintro w r y ⟨L, hw⟩
    exact Closed.not_start (fun h => StmtPhrase.eq_cons h) hw (by rw [hk]; decide)
      (by rw [hk]; decide)
  | case3 s hc hend e' hst =>
    intro e h hd
    cases h
    refine FailsAt.after (Reads.refl s) (stmt_fails hst hd) ?_ ?_
    · rintro x ⟨L, st, hx⟩
      have hV : Closed (StmtPhrase L) (fun c => c.kind = .closeBrace) (x ++ [kindToken .closeBrace]) :=
        Closed.cons hx (Closed.single (kindToken_kind _))
      exact ⟨[kindToken .closeBrace], L, by simpa using hV⟩
    · rintro w r z ⟨L, hw⟩ heq hz
      obtain ⟨z', rfl⟩ := List.head?_eq_some_iff.1 hz
      obtain ⟨st, u, w', hu, -, rfl⟩ := hw.cons_inv heq (accept?_eq_none.1 hc)
      exact ⟨u, w' ++ r, ⟨L, st, hu⟩, by simpa using heq⟩
  | case4 s hc hend st s₁ h₁ hst e' hsts ih =>
    intro e h hd
    cases h
    obtain ⟨u, hu, hr₁⟩ := stmt_sound hst
    refine FailsAt.after hr₁ (ih hsts hd) ?_ ?_
    · rintro x ⟨L, hx⟩
      exact ⟨[], Limits.parser.join L, by
        simpa using Closed.cons (hu.mono (Limits.le_join_left _ _))
          (hx.mono fun _ _ h => h.mono (Limits.le_join_right _ _))⟩
    · rintro w r z ⟨L, hw⟩ heq -
      obtain ⟨k, u', rfl, -⟩ := hu.eq_cons
      obtain ⟨w', hw', hz⟩ := hw.rest StmtPhrase.unique (not_closeBrace_of_stmt hu) hu heq
      exact ⟨w', r, ⟨L, hw'⟩, hz⟩
  | case5 => intro _ h; cases h

theorem blockPhrase_head {L : Limits} {sts : List Stmt} {w : List Token} (h : BlockPhrase L sts w) :
    ∃ o w', w = o :: w' ∧ o.kind = .openBrace := by
  cases h with
  | mk ho _ _ => exact ⟨_, _, rfl, ho⟩

theorem body_fails {s : Stream} {e : ParseError} (h : body s = .error e)
    (hd : e.reason ≠ .tooDeep) : FailsIn (fun w => ∃ L sts, BlockPhrase L sts w) s e := by
  unfold body at h
  split at h
  · rename_i e' ho
    cases h
    obtain ⟨hf, hk⟩ := expect_error ho
    refine FailsAt.here hf ⟨_, Limits.parser, [], .mk (kindToken_kind .openBrace) .nil
      (kindToken_kind .closeBrace)⟩ ?_
    rintro w r y ⟨L, sts, hb⟩ heq
    obtain ⟨o, w', rfl, ho'⟩ := blockPhrase_head hb
    simp only [List.cons_append, List.cons.injEq] at heq
    exact hk (heq.1 ▸ ho')
  · rename_i r₁ ho
    obtain ⟨o, hok, hr₁⟩ := expect_sound ho (by decide)
    split at h
    · rename_i e' hsts
      cases h
      refine FailsAt.after hr₁ (stmts_fails hsts hd) ?_ ?_
      · rintro x ⟨L, sts, v, c, hv, hc, rfl⟩
        exact ⟨[], L, sts, by simpa using BlockPhrase.mk hok hv hc⟩
      · rintro w r z ⟨L, sts, hb⟩ heq -
        cases hb with
        | mk _ hs hc =>
          simp only [List.cons_append, List.append_assoc, List.nil_append,
            List.cons.injEq] at heq
          exact ⟨_, r, ⟨L, _, _, _, hs, hc, rfl⟩, by simpa using heq.2⟩
    · cases h

/-! ## Functions -/

theorem functionPhrase_inv {L : Limits} {f : FunctionDef} {k : Token} {w : List Token}
    (h : FunctionPhrase L f (k :: w)) :
    ∃ a u c r v x ps ty sts, w = a :: u ++ c :: r :: v ∧ NameToken a x ∧ ParamList ps u ∧
      c.kind = .colon ∧ NameToken r ty ∧ BlockPhrase L sts v := by
  cases h with
  | mk _ ha hu hc hr hv => exact ⟨_, _, _, _, _, _, _, _, _, rfl, ha, hu, hc, hr, hv⟩

theorem functionPhrase_of_keyword {L : Limits} {f : FunctionDef} {k k' : Token} {w : List Token}
    (h : FunctionPhrase L f (k :: w)) (hk : k'.kind = k.kind) : FunctionPhrase L f (k' :: w) := by
  cases h with
  | mk hk₀ ha hu hc hr hv => exact .mk (hk.trans hk₀) ha hu hc hr hv

theorem blockPhrase_empty : BlockPhrase Limits.parser [] [kindToken .openBrace, kindToken .closeBrace] :=
  .mk (kindToken_kind _) .nil (kindToken_kind _)

theorem functionRest_fails {s : Stream} {e : ParseError} (h : functionRest s = .error e)
    (hd : e.reason ≠ .tooDeep) :
    FailsIn (fun w => ∃ k L f, k.kind = .kwFunction ∧ FunctionPhrase L f (k :: w)) s e := by
  unfold functionRest at h
  split at h
  · rename_i e' hx
    cases h
    obtain ⟨hf, hn⟩ := expectName_error hx
    refine FailsAt.here hf ⟨_, _, _, _, kindToken_kind .kwFunction, .mk (kindToken_kind _)
      nameToken_name (.empty (kindToken_kind .openParen) (kindToken_kind .closeParen))
      (kindToken_kind .colon) nameToken_name blockPhrase_empty⟩ ?_
    rintro w r y ⟨k, L, f, -, hf'⟩ heq
    obtain ⟨a, u, c, t, v, x, ps, ty, sts, rfl, ha, -⟩ := functionPhrase_inv hf'
    simp only [List.cons_append, List.cons.injEq] at heq
    exact hn _ (heq.1 ▸ ha)
  · rename_i x s₁ h₁ hx
    obtain ⟨a, ha, hr₁⟩ := expectName_sound hx
    split at h
    · rename_i e' hps
      cases h
      refine FailsAt.after hr₁ (params_fails hps) ?_ ?_
      · rintro x ⟨ps, hx⟩
        exact ⟨[kindToken .colon, nameToken, kindToken .openBrace, kindToken .closeBrace], _, _, _,
          kindToken_kind .kwFunction, .mk (kindToken_kind _) ha hx (kindToken_kind _)
            nameToken_name blockPhrase_empty⟩
      · rintro w r z ⟨k, L, f, -, hf'⟩ heq -
        obtain ⟨a', u, c, t, v, x', ps, ty, sts, rfl, -, hu, -⟩ := functionPhrase_inv hf'
        simp only [List.cons_append, List.append_assoc, List.nil_append, List.cons.injEq] at heq
        exact ⟨u, _, ⟨ps, hu⟩, heq.2⟩
    · rename_i ps s₂ h₂ hps
      obtain ⟨u, hu, hr₂⟩ := params_sound hps
      have hrival : ∀ {k L f w r z}, FunctionPhrase L f (k :: w) → w ++ r = (a :: u) ++ z →
          ∃ c t v ty sts, z = c :: t :: (v ++ r) ∧ c.kind = .colon ∧ NameToken t ty ∧
            BlockPhrase L sts v := by
        intro k L f w r z hf' heq
        obtain ⟨a', u', c, t, v, x', ps', ty, sts, rfl, -, hu', hc, ht, hv⟩ :=
          functionPhrase_inv hf'
        simp only [List.cons_append, List.append_assoc, List.cons.injEq] at heq
        obtain ⟨rfl, -⟩ := ParamList.unique hu' hu heq.2
        simp only [List.append_cancel_left_eq] at heq
        exact ⟨c, t, v, ty, sts, by simpa using heq.2.symm, hc, ht, hv⟩
      split at h
      · rename_i e' hcol
        cases h
        obtain ⟨hf, hk⟩ := expect_error hcol
        refine ⟨a :: u, s₂, hr₁.trans hr₂, hf, ⟨_, _, _, _, kindToken_kind .kwFunction,
          .mk (kindToken_kind _) ha hu (kindToken_kind .colon) nameToken_name
            blockPhrase_empty⟩, ?_⟩
        rintro w r y ⟨k, L, f, -, hf'⟩ heq
        obtain ⟨c, t, v, ty, sts, hz, hc, -⟩ := hrival hf' heq
        rw [List.cons.injEq] at hz
        exact hk (hz.1 ▸ hc)
      · rename_i s₃ h₃ hcol
        obtain ⟨c, hc, hr₃⟩ := expect_sound hcol (by decide)
        split at h
        · rename_i e' hty
          cases h
          obtain ⟨hf, hn⟩ := expectName_error hty
          refine ⟨a :: u ++ [c], s₃, hr₁.trans (hr₂.trans hr₃), hf, ⟨_, _, _, _,
            kindToken_kind .kwFunction, by
              simpa using FunctionPhrase.mk (kindToken_kind .kwFunction) ha hu hc nameToken_name
                blockPhrase_empty⟩, ?_⟩
          rintro w r y ⟨k, L, f, -, hf'⟩ heq
          obtain ⟨c', t, v, ty, sts, hz, -, ht, -⟩ := hrival hf' (by simpa using heq)
          simp only [List.cons.injEq] at hz
          exact hn _ (hz.2.1 ▸ ht)
        · rename_i ty s₄ h₄ hty
          obtain ⟨t, ht, hr₄⟩ := expectName_sound hty
          split at h
          · rename_i e' hb
            cases h
            refine FailsAt.after (hr₁.trans (hr₂.trans (hr₃.trans hr₄))) (body_fails hb hd) ?_ ?_
            · rintro x ⟨L, sts, hx⟩
              exact ⟨[], _, _, _, kindToken_kind .kwFunction, by
                simpa using FunctionPhrase.mk (kindToken_kind .kwFunction) ha hu hc ht hx⟩
            · rintro w r z ⟨k, L, f, -, hf'⟩ heq -
              obtain ⟨c', t', v, ty', sts, hz, -, -, hv⟩ :=
                hrival hf' (show w ++ r = (a :: u) ++ (c :: t :: z) by simpa using heq)
              simp only [List.cons.injEq] at hz
              exact ⟨v, r, ⟨L, sts, hv⟩, hz.2.2.symm⟩
          · cases h

/-- Function definitions up to the end token. -/
def Functions (w : List Token) : Prop :=
  ∃ L, Closed (FunctionPhrase L) (fun c => c.kind = .endOfFile) w

theorem sentence_iff_functions {w : List Token} : Sentence w ↔ Functions w :=
  ⟨fun ⟨L, t, u, eof, hu, heof, hw⟩ => ⟨L, t.functions, u, eof, hu, heof, hw⟩,
    fun ⟨L, fs, u, eof, hu, heof, hw⟩ => ⟨L, ⟨fs⟩, u, eof, hu, heof, hw⟩⟩

theorem functions_fails {s : Stream} :
    ∀ {e : ParseError}, functions s = .error e → e.reason ≠ .tooDeep → FailsIn Functions s e := by
  fun_induction functions s with
  | case1 => intro _ h; cases h
  | case2 s hend hf =>
    intro e h hd
    cases h
    have hk : s.current.kind ≠ .endOfFile := by
      rw [hasEnded_eq_current_isEnd] at hend
      simpa [Token.isEnd] using hend
    refine FailsAt.here rfl ⟨_, Limits.parser, Closed.single (kindToken_kind .endOfFile)⟩ ?_
    rintro w r y ⟨L, hw⟩
    exact Closed.not_start (fun h => FunctionPhrase.eq_cons h) hw hk (accept?_eq_none.1 hf)
  | case3 s hend k s₁ hf h₁ e' hfr =>
    intro e h hd
    cases h
    obtain ⟨hk, hr₁⟩ := Reads.of_accept? hf (by decide)
    refine FailsAt.after hr₁ (functionRest_fails hfr hd) ?_ ?_
    · rintro x ⟨k', L, f, hk', hx⟩
      have hV : Closed (FunctionPhrase L) (fun c => c.kind = .endOfFile)
          ((k :: x) ++ [kindToken .endOfFile]) :=
        Closed.cons (functionPhrase_of_keyword hx (hk.trans hk'.symm))
          (Closed.single (kindToken_kind _))
      exact ⟨[kindToken .endOfFile], L, by simpa using hV⟩
    · rintro w r z ⟨L, hw⟩ heq -
      obtain ⟨f, u, w', hu, -, rfl⟩ := hw.cons_inv heq (by rw [hk]; decide)
      obtain ⟨k', u', rfl, hk'⟩ := hu.eq_cons
      simp only [List.cons_append, List.append_assoc, List.nil_append, List.cons.injEq] at heq
      exact ⟨u', w' ++ r, ⟨k', L, f, hk', hu⟩, heq.2⟩
  | case4 s hend k s₁ hf h₁ f s₂ h₂ hfr e' hfs ih =>
    intro e h hd
    cases h
    obtain ⟨hk, hr₁⟩ := Reads.of_accept? hf (by decide)
    obtain ⟨u, hr₂, hp⟩ := functionRest_sound hfr
    refine FailsAt.after (hr₁.trans hr₂) (ih hfs hd) ?_ ?_
    · rintro x ⟨L, hx⟩
      exact ⟨[], Limits.parser.join L, by
        simpa using Closed.cons ((hp k hk).mono (Limits.le_join_left _ _))
          (hx.mono fun _ _ h => h.mono (Limits.le_join_right _ _))⟩
    · rintro w r z ⟨L, hw⟩ heq -
      obtain ⟨w', hw', hz⟩ :=
        hw.rest FunctionPhrase.unique (by rw [hk]; decide) (hp k hk) (by simpa using heq)
      exact ⟨w', r, ⟨L, hw'⟩, hz⟩
  | case5 => intro _ h; cases h

end LangFront.Parse

namespace LangFront

open Token Grammar Parse Stream

theorem Program.functions_of_ofTokens {ts : List Token} {e : ParseError}
    (h : Program.ofTokens ts = .error e) : Parse.functions (ofList ts) = .error e := by
  unfold Program.ofTokens Program.ofStream at h
  cases hf : Parse.functions (ofList ts) with
  | error e' =>
    rw [hf] at h
    cases h
    rfl
  | ok fs =>
    rw [hf] at h
    cases h

theorem cursorTokens_of_reads {ts P : List Token} {s' : Stream} (h : Reads (ofList ts) P s') :
    cutAtEnd (cursorTokens ts) = P ++ s'.current :: s'.toList.tail ∧
      (cursorTokens ts)[P.length]? = some s'.current := by
  have hcut : cutAtEnd (cursorTokens ts) = P ++ s'.current :: s'.toList.tail := by
    rw [← toList_ofList, h.toList_eq]
    exact congrArg (P ++ ·) (toList_eq_current_cons s')
  obtain ⟨rest, hrest⟩ := cutAtEnd_append (cursorTokens ts)
  refine ⟨hcut, ?_⟩
  rw [← hrest, hcut, List.append_assoc, List.getElem?_append_right (Nat.le_refl _), Nat.sub_self]
  rfl

/-- A reading that fails, but for the parser's bounds on expressions, names the first token that
no sentence of the grammar can have: the token at the position where the reading stopped in the
list the cursor holds, and reported at its location. The tokens before it start a sentence, and
with it they start none. -/
theorem Program.ofTokens_error_correct_prefix (ts : List Token) (e : ParseError)
    (h : Program.ofTokens ts = .error e) (hd : e.reason.text ≠ "expression nested too deeply") :
    ∃ j, (cursorTokens ts)[j]? = some e.found ∧ e.location = e.found.location ∧
      (∃ x, Sentence ((cutAtEnd (cursorTokens ts)).take j ++ x)) ∧
      ∀ x, ¬ Sentence ((cutAtEnd (cursorTokens ts)).take (j + 1) ++ x) := by
  have hdeep : e.reason ≠ .tooDeep := fun h' => hd (by rw [h']; rfl)
  obtain ⟨P, s', hP, hf, ⟨x, hx⟩, hn⟩ := functions_fails (Program.functions_of_ofTokens h) hdeep
  obtain ⟨hcut, hj⟩ := cursorTokens_of_reads hP
  have htake : (cutAtEnd (cursorTokens ts)).take P.length = P := by
    rw [hcut]
    simp
  have htake' : (cutAtEnd (cursorTokens ts)).take (P.length + 1) = P ++ [s'.current] := by
    rw [hcut, List.take_length_add_append]
    rfl
  refine ⟨P.length, hf ▸ hj, rfl, ⟨x, ?_⟩, fun y hy => ?_⟩
  · rw [htake]
    exact sentence_iff_functions.2 hx
  · rw [htake'] at hy
    exact hn _ [] y (sentence_iff_functions.1 hy) (by simp)

theorem ofTokens_error_correct_prefix_colon :
    Program.ofTokens [kindToken .kwFunction, nameToken, kindToken .openParen,
        kindToken .closeParen, kindToken .openBrace] = .error ⟨.colon, kindToken .openBrace⟩ ∧
      Reason.colon.text ≠ "expression nested too deeply" ∧
      ∃ j, (cursorTokens [kindToken .kwFunction, nameToken, kindToken .openParen,
          kindToken .closeParen, kindToken .openBrace])[j]? = some (kindToken .openBrace) ∧
        (kindToken .openBrace).location = (kindToken .openBrace).location ∧
        (∃ x, Sentence ((cutAtEnd (cursorTokens [kindToken .kwFunction, nameToken,
          kindToken .openParen, kindToken .closeParen, kindToken .openBrace])).take j ++ x)) ∧
        ∀ x, ¬ Sentence ((cutAtEnd (cursorTokens [kindToken .kwFunction, nameToken,
          kindToken .openParen, kindToken .closeParen, kindToken .openBrace])).take (j + 1) ++ x) := by
  have h : Program.ofTokens [kindToken .kwFunction, nameToken, kindToken .openParen,
      kindToken .closeParen, kindToken .openBrace] = .error ⟨.colon, kindToken .openBrace⟩ := by
    cbv
  have hd : Reason.colon.text ≠ "expression nested too deeply" := by decide
  exact ⟨h, hd, Program.ofTokens_error_correct_prefix _ _ h hd⟩

end LangFront
