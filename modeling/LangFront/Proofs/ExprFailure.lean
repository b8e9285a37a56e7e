import LangFront.Proofs.Lookahead
/-!
# Where an expression reading fails

A reading that fails stops at a token it has not read. `FailsAt V N s e` says where: the tokens
`P` read from `s` before the token `e` names can be completed to a phrase of `V`, and no phrase
of `N`, followed by what `N` lets follow it, reads `P` and then that token. So the failure comes
exactly at the first token that no phrase could read.

This holds of every failing expression reading but one kind (`expr_fails`): the refusals of
the parser's bounds, which stop phrases that the grammar does derive. The proof follows the
readings as soundness does, and where a reading went on after reading a phrase, the grammar's
one-token lookahead (`Derives.unique`) makes every derivation agree with that phrase.
-/

namespace LangFront.Parse

open Token Grammar Stream

/-- The reading from `s` failed with `e` at the first token that no phrase can read: the
tokens before it start a phrase of `V`, and no phrase of `N` with what it lets follow reads
them and then that token. -/
def FailsAt (V : List Token → Prop) (N : List Token → List Token → Prop) (s : Stream)
    (e : ParseError) : Prop :=
  ∃ P s', Reads s P s' ∧ e.found = s'.current ∧ (∃ x, V (P ++ x)) ∧
    ∀ w r y, N w r → w ++ r ≠ P ++ s'.current :: y

section
variable {V V' : List Token → Prop} {N N' : List Token → List Token → Prop} {s s₁ : Stream}
  {e : ParseError}

theorem FailsAt.here (hf : e.found = s.current) (hV : ∃ x, V x)
    (hN : ∀ w r y, N w r → w ++ r ≠ s.current :: y) : FailsAt V N s e :=
  ⟨[], s, Reads.refl s, hf, by simpa using hV, by simpa using hN⟩

theorem FailsAt.after {u : List Token} (hr : Reads s u s₁) (h : FailsAt V' N' s₁ e)
    (hV : ∀ x, V' x → ∃ x', V (u ++ x ++ x'))
    (hN : ∀ w r z, N w r → w ++ r = u ++ z → z.head? = some s₁.current →
      ∃ w' r', N' w' r' ∧ w' ++ r' = z) : FailsAt V N s e := by
  obtain ⟨P, s', hP, hf, ⟨x, hx⟩, hn⟩ := h
  obtain ⟨x', hx'⟩ := hV _ hx
  refine ⟨u ++ P, s', hr.trans hP, hf, ⟨x ++ x', by simpa [List.append_assoc] using hx'⟩, ?_⟩
  intro w r y hw heq
  have hhead : (P ++ s'.current :: y).head? = some s₁.current := by
    cases P with
    | nil => rw [Reads.nil_iff.1 hP]; rfl
    | cons t P => rw [Reads.current_eq_of_cons hP]; rfl
  obtain ⟨w', r', hw', heq'⟩ := hN w r _ hw (by simpa [List.append_assoc] using heq) hhead
  exact hn w' r' y hw' heq'

end

/-! ## Facts of single readings -/

/-- A token of a kind that needs no payload, to complete a phrase with. -/
def kindToken (k : Kind) : Token := ⟨k, none, default⟩

@[simp] theorem kindToken_kind (k : Kind) : (kindToken k).kind = k := rfl

/-- A number token, to complete a phrase with. -/
def numberToken : Token := Token.ofNumber 0 default

theorem numberToken_factor {lim n : Nat} (h : n ≤ lim) :
    Derives lim .factor n (.lit 0) [numberToken] :=
  .number h ⟨rfl, rfl⟩

theorem isTail_layerOf (b : Nat) : (layerOf b).isTail = false := by
  match b with
  | 0 => rfl
  | 1 => rfl
  | _ + 2 => rfl

theorem factor_head {lim n : Nat} {f : Expr} {w r y : List Token} {t : Token}
    (h : Derives lim .factor n f w) (heq : w ++ r = t :: y) :
    (∃ v, NumberToken t v) ∨ (∃ x, NameToken t x) ∨ t.kind = .openParen := by
  cases h with
  | number _ ht =>
    simp only [List.singleton_append, List.cons.injEq] at heq
    exact .inl ⟨_, heq.1 ▸ ht⟩
  | name _ ht =>
    simp only [List.singleton_append, List.cons.injEq] at heq
    exact .inr (.inl ⟨_, heq.1 ▸ ht⟩)
  | paren ho _ _ =>
    simp only [List.cons_append, List.cons.injEq] at heq
    exact .inr (.inr (heq.1 ▸ ho))

theorem factor_paren {lim n : Nat} {f : Expr} {w r z : List Token} {t : Token}
    (h : Derives lim .factor n f w) (heq : w ++ r = t :: z) (ht : t.kind = .openParen) :
    ∃ u c, Derives lim .expr (n + 1) f u ∧ c.kind = .closeParen ∧ z = u ++ c :: r := by
  cases h with
  | number _ ht' =>
    simp only [List.singleton_append, List.cons.injEq] at heq
    exact absurd (ht'.1.symm.trans (heq.1 ▸ ht)) (by decide)
  | name _ ht' =>
    simp only [List.singleton_append, List.cons.injEq] at heq
    exact absurd (ht'.1.symm.trans (heq.1 ▸ ht)) (by decide)
  | paren _ hd hc =>
    simp only [List.cons_append, List.append_assoc, List.cons.injEq] at heq
    exact ⟨_, _, hd, hc, heq.2.symm⟩

theorem name?_error {s : Stream} {e : ParseError} (h : name? s = .error e) :
    e.found = s.current ∧ s.current.kind = .identifier ∧ s.current.name? = none := by
  unfold name? at h
  split at h
  · rename_i hid
    split at h
    · cases h
    · rename_i hx
      cases h
      exact ⟨rfl, by simpa [Stream.peekIs] using hid, hx⟩
  · cases h

theorem name?_none {s : Stream} (h : name? s = .ok none) : s.current.kind ≠ .identifier := by
  unfold name? at h
  split at h
  · split at h <;> cases h
  · rename_i hid
    simpa [Stream.peekIs] using hid

theorem operand_none {n : Nat} {s : Stream} (h : operand n s = .ok none) :
    ¬ StartsFactor s.current := by
  unfold operand at h
  split at h
  · split at h
    · cases h
    · cases h
    · split at h <;> cases h
  · rename_i hp
    split at h
    · split at h <;> cases h
    · rename_i hnum
      split at h
      · cases h
      · rename_i hname
        have hk := accept?_eq_none.1 hp
        have hn : s.current.kind ≠ .number := by simpa [Stream.peekIs] using hnum
        have hi := name?_none hname
        rintro (h | h | h) <;> contradiction
      · cases h

theorem expr_none {d b : Nat} {s : Stream} (h : expr d b s = .ok none) :
    ¬ StartsFactor s.current := by
  unfold expr at h
  split at h
  · cases h
  · split at h
    · cases h
    · rename_i hop
      exact operand_none hop
    · split at h <;> cases h

theorem lt_maxOpen_of_expr {d b : Nat} {s : Stream} {x : Option (ExprRead s)}
    (h : expr d b s = .ok x) : d < maxOpen := by
  unfold expr at h
  split at h
  · cases h
  · omega

theorem climbTail_split {lim b n : Nat} {left e : Expr} {t : Token} {w r : List Token} {op : Op}
    (h : ClimbTail lim b n left e (t :: w)) (hk : Op.ofKind? t.kind = some op)
    (hr : ∀ t' ∈ r.head?, Stops b t') :
    ∃ r₀ u v, Derives lim (layerOf op.precedence) (n + 1) r₀ u ∧
      ClimbTail lim b n (.bin op left r₀) e v ∧ w = u ++ v ∧
      ∀ t' ∈ (v ++ r).head?, Stops op.precedence t' := by
  obtain ⟨op', r₀, u, v, hk', hb, hu, hv, rfl, hstop⟩ := climbTail_cons_inv h
  rw [hk, Option.some.injEq] at hk'
  subst hk'
  refine ⟨r₀, u, v, hu, hv, rfl, fun t' ht' => ?_⟩
  cases v with
  | nil => exact (hr t' (by simpa using ht')).mono (by omega)
  | cons t'' v =>
    simp only [List.cons_append, List.head?_cons, Option.mem_def, Option.some.injEq] at ht'
    exact ht' ▸ hstop t'' v rfl

theorem not_stops {b : Nat} {t : Token} {op : Op} (hk : Op.ofKind? t.kind = some op)
    (hb : ¬ op.precedence ≤ b) : ¬ Stops b t :=
  fun h => hb (h op hk)

/-! ## The three readings -/

/-- How an operand reading at level `n` from `s` fails: at a token that no factor reads. -/
private def OperandFails (s : Stream) : Prop :=
  ∀ n e, n ≤ maxOpen → operand n s = .error e → e.reason ≠ .tooDeep →
    FailsAt (fun u => ∃ f, Derives maxOpen .factor n f u)
      (fun w _ => ∃ lim n' f, Derives lim .factor n' f w) s e

/-- How a climb from `s` fails: at a token that no climb of the bound reads; what it has read
starts at its first token. -/
private def ClimbFails (s : Stream) : Prop :=
  ∀ n b left h e, h = left.height → left.height ≤ maxHeight → n ≤ maxOpen →
    climb n b left h s = .error e → e.reason ≠ .tooDeep →
    FailsAt (fun u => (∃ e', ClimbTail maxOpen b n left e' u) ∧ u.head? = some s.current)
      (fun w r => (∃ lim n' e', ClimbTail lim b n' left e' w) ∧ ∀ t ∈ r.head?, Stops b t) s e

/-- How an expression reading from `s` fails: at a token that no phrase of its layer reads. -/
private def ExprFails (s : Stream) : Prop :=
  ∀ d b e, expr d b s = .error e → e.reason ≠ .tooDeep →
    FailsAt (fun u => ∃ e', Derives maxOpen (layerOf b) (d + 1) e' u)
      (fun w r => (∃ lim n' e', Derives lim (layerOf b) n' e' w) ∧ ∀ t ∈ r.head?, Stops b t) s e

private theorem operand_fails_of {s : Stream}
    (hx : ∀ s' : Stream, s'.size < s.size → ExprFails s') : OperandFails s := by
  intro n e hn hr hd
  unfold operand at hr
  split at hr
  · rename_i t₁ s₁ hp
    have h₁ : s₁.size < s.size := Stream.size_lt_of_accept? hp (by decide)
    obtain ⟨ho, hr₁⟩ := Reads.of_accept? hp (by decide)
    split at hr
    · rename_i e' hin
      cases hr
      refine FailsAt.after hr₁ (hx s₁ h₁ n 0 e hin hd) ?_ ?_
      · rintro x ⟨e', hx'⟩
        exact ⟨[kindToken .closeParen], e', by simpa using Derives.paren ho hx' rfl⟩
      · rintro w r z ⟨lim, n', f, hf⟩ heq -
        obtain ⟨u, c, hu, hc, rfl⟩ := factor_paren hf (by simpa using heq) ho
        exact ⟨u, c :: r, ⟨⟨lim, _, _, hu⟩, stops_cons (by rw [hc]; rfl) r⟩, rfl⟩
    · rename_i hin
      cases hr
      have hnone := expr_none hin
      have hlt := lt_maxOpen_of_expr hin
      refine ⟨[t₁], s₁, hr₁, rfl, ⟨[numberToken, kindToken .closeParen], .lit 0,
        by simpa using Derives.paren ho (numberToken_factor hlt).term_of_factor.expr_of_term rfl⟩,
        ?_⟩
      rintro w r y ⟨lim, n', f, hf⟩ heq
      obtain ⟨u, c, hu, -, hz⟩ := factor_paren hf (by simpa using heq) ho
      obtain ⟨t, u', rfl, ht⟩ := hu.head_startsFactor rfl
      simp only [List.cons_append, List.cons.injEq] at hz
      exact hnone (hz.1 ▸ ht)
    · rename_i e' h' s₂ h₂ hin
      split at hr
      · cases hr
      · rename_i hc
        cases hr
        obtain ⟨u, hdu, hu, rfl, -, hst⟩ := expr_sound hin
        refine ⟨t₁ :: u, s₂, hr₁.trans hu, rfl,
          ⟨[kindToken .closeParen], e', by simpa using Derives.paren ho hdu rfl⟩, ?_⟩
        rintro w r y ⟨lim, n', f, hf⟩ heq
        obtain ⟨u', c, hu', hc', hz⟩ := factor_paren hf (by simpa using heq) ho
        obtain ⟨rfl, -⟩ := Derives.unique hu' hdu hz.symm (stops_cons (by rw [hc']; rfl) r)
          (by simpa [Sym.Follows] using hst)
        simp only [List.append_cancel_left_eq, List.cons.injEq] at hz
        exact accept?_eq_none.1 hc (hz.1 ▸ hc')
  · rename_i hp
    split at hr
    · rename_i hnum
      split at hr
      · cases hr
      · rename_i hv
        cases hr
        refine FailsAt.here rfl ⟨[numberToken], .lit 0, numberToken_factor hn⟩ ?_
        rintro w r y ⟨lim, n', f, hf⟩ heq
        have hk : s.current.kind = .number := by simpa [Stream.peekIs] using hnum
        rcases factor_head hf heq with ⟨v, hv'⟩ | ⟨x, hx'⟩ | ho
        · rw [hv'.2] at hv
          cases hv
        · exact absurd (hk.symm.trans hx'.1) (by decide)
        · exact absurd (hk.symm.trans ho) (by decide)
    · split at hr
      · rename_i e' hname
        cases hr
        obtain ⟨hf, hk, hnone⟩ := name?_error hname
        refine FailsAt.here hf ⟨[numberToken], .lit 0, numberToken_factor hn⟩ ?_
        rintro w r y ⟨lim, n', f, hf'⟩ heq
        rcases factor_head hf' heq with ⟨v, hv'⟩ | ⟨x, hx'⟩ | ho
        · exact absurd (hk.symm.trans hv'.1) (by decide)
        · rw [hx'.2] at hnone
          cases hnone
        · exact absurd (hk.symm.trans ho) (by decide)
      · cases hr
      · cases hr

private theorem climb_fails_of {s : Stream}
    (hx : ∀ s' : Stream, s'.size < s.size → ExprFails s')
    (hc : ∀ s' : Stream, s'.size < s.size → ClimbFails s') : ClimbFails s := by
  intro n b left h e hh hl hn hr hd
  unfold climb at hr
  split at hr
  · cases hr
  · rename_i op hk
    split at hr
    · cases hr
    · rename_i hb
      have hne := Op.ne_endOfFile_of_ofKind? hk
      have h₁ : s.advance.size < s.size := Stream.size_advance_lt hne
      have hrival : ∀ lim n' e' w r z, ClimbTail lim b n' left e' w → (∀ t ∈ r.head?, Stops b t) →
          w ++ r = s.current :: z → ∃ r₀ u v, Derives lim (layerOf op.precedence) (n' + 1) r₀ u ∧
            ClimbTail lim b n' (.bin op left r₀) e' v ∧ z = u ++ (v ++ r) ∧
            ∀ t ∈ (v ++ r).head?, Stops op.precedence t := by
        intro lim n' e' w r z hw hr heq
        cases w with
        | nil =>
          rw [List.nil_append] at heq
          exact absurd (hr _ (by simp [heq])) (not_stops hk hb)
        | cons t w =>
          simp only [List.cons_append, List.cons.injEq] at heq
          obtain ⟨rfl, rfl⟩ := heq
          obtain ⟨r₀, u, v, hu, hv, rfl, hst⟩ := climbTail_split hw hk hr
          exact ⟨r₀, u, v, hu, hv, by rw [List.append_assoc], hst⟩
      split at hr
      · rename_i e' hin
        cases hr
        refine FailsAt.after (reads_advance hne) (hx s.advance h₁ n op.precedence e hin hd) ?_ ?_
        · rintro x ⟨r₀, hx'⟩
          have hcl : ClimbTail maxOpen b n left (.bin op left r₀) (s.current :: x ++ []) :=
            climbTail_cons hk (by omega) hx' climbTail_nil (fun _ _ h => by cases h)
          exact ⟨[], ⟨_, by simpa using hcl⟩, rfl⟩
        · rintro w r z ⟨⟨lim, n', e', hw⟩, hr⟩ heq -
          obtain ⟨r₀, u, v, hu, -, rfl, hst⟩ := hrival lim n' e' w r z hw hr heq
          exact ⟨u, v ++ r, ⟨⟨lim, _, _, hu⟩, hst⟩, rfl⟩
      · rename_i hin
        cases hr
        have hnone := expr_none hin
        have hcl : ClimbTail maxOpen b n left (.bin op left (.lit 0)) (s.current :: [numberToken] ++ []) :=
          climbTail_cons hk (by omega)
            (numberToken_factor (lt_maxOpen_of_expr hin)).layerOf_of_factor climbTail_nil
            (fun _ _ h => by cases h)
        refine ⟨[s.current], s.advance, reads_advance hne, rfl,
          ⟨[numberToken], ⟨_, by simpa using hcl⟩, rfl⟩, ?_⟩
        rintro w r y ⟨⟨lim, n', e', hw⟩, hr⟩ heq
        obtain ⟨r₀, u, v, hu, -, hz, -⟩ :=
          hrival lim n' e' w r (s.advance.current :: y) hw hr (by simpa using heq)
        obtain ⟨t, u', rfl, ht⟩ := hu.head_startsFactor (isTail_layerOf _)
        simp only [List.cons_append, List.cons.injEq] at hz
        exact hnone (hz.1 ▸ ht)
      · rename_i r' rh s₂ h₂ hin
        split at hr
        · cases hr
          exact absurd rfl hd
        · split at hr
          · rename_i e' hcl
            cases hr
            obtain ⟨u, hdu, hu, rfl, hrh, hst⟩ := expr_sound hin
            have hbin : (Expr.bin op left r').height ≤ maxHeight := by
              simp only [Expr.height_bin]
              omega
            refine FailsAt.after ((reads_advance hne).trans hu)
              (hc s₂ (by omega) n b (.bin op left r') _ e (by simp [hh]) hbin hn hcl hd) ?_ ?_
            · rintro x ⟨⟨e', hx'⟩, hhead⟩
              have hstop : ∀ t' w, x = t' :: w → Stops op.precedence t' := by
                rintro t' w rfl
                simp only [List.head?_cons, Option.some.injEq] at hhead
                exact hhead ▸ hst
              exact ⟨[], ⟨e', by simpa using climbTail_cons hk (by omega) hdu hx' hstop⟩, rfl⟩
            · rintro w r z ⟨⟨lim, n', e', hw⟩, hr⟩ heq hz
              obtain ⟨r₀, u₀, v, hu₀, hv, hz', hst'⟩ :=
                hrival lim n' e' w r (u ++ z) hw hr (by simpa using heq)
              have hfz : ∀ t ∈ z.head?, (layerOf op.precedence).Follows t := by
                intro t ht
                rw [hz, Option.mem_def, Option.some.injEq] at ht
                exact follows_layerOf (ht ▸ hst)
              obtain ⟨rfl, rfl⟩ := Derives.unique hu₀ hdu hz'.symm
                (fun t ht => follows_layerOf (hst' t ht)) hfz
              exact ⟨v, r, ⟨⟨lim, n', e', hv⟩, hr⟩, (List.append_cancel_left hz').symm⟩
          · cases hr

private theorem expr_fails_of {s : Stream} (ho : OperandFails s)
    (hc : ∀ s' : Stream, s'.size ≤ s.size → ClimbFails s') : ExprFails s := by
  intro d b e hr hd
  unfold expr at hr
  split at hr
  · cases hr
    exact absurd rfl hd
  · rename_i hdepth
    split at hr
    · rename_i e' hop
      cases hr
      refine FailsAt.after (Reads.refl s) (ho (d + 1) e (by omega) hop hd) ?_ ?_
      · rintro x ⟨f, hx'⟩
        exact ⟨[], f, by simpa using hx'.layerOf_of_factor⟩
      · rintro w r z ⟨⟨lim, n', e', hw⟩, -⟩ heq -
        obtain ⟨f, u, v, hf, -, rfl⟩ := hw.layerOf_inv
        exact ⟨u, v ++ r, ⟨lim, n', f, hf⟩, by simpa using heq⟩
    · cases hr
    · rename_i f hf s₁ h₁ hop
      split at hr
      · rename_i e' hcl
        cases hr
        obtain ⟨u, hfu, hu, rfl, hfh⟩ := operand_sound (by omega) hop
        refine FailsAt.after hu (hc s₁ h₁ (d + 1) b f f.height e rfl hfh (by omega) hcl hd) ?_ ?_
        · rintro x ⟨⟨e', hx'⟩, -⟩
          exact ⟨[], e', by simpa using derives_layerOf hfu hx'⟩
        · rintro w r z ⟨⟨lim, n', e', hw⟩, hr⟩ heq -
          obtain ⟨f', u', v, hf', hv, rfl⟩ := hw.layerOf_inv
          have heq' : u' ++ (v ++ r) = u ++ z := by simpa using heq
          obtain ⟨rfl, rfl⟩ := Derives.unique hf' hfu heq' (fun _ _ => trivial) (fun _ _ => trivial)
          exact ⟨v, r, ⟨⟨lim, n', e', hv⟩, hr⟩, List.append_cancel_left heq'⟩
      · cases hr

/-- By induction on the size of the stream, in the order of `sound_of_size`. -/
private theorem fails_of_size (n : Nat) :
    (∀ s : Stream, s.size ≤ n → OperandFails s) ∧ (∀ s : Stream, s.size ≤ n → ClimbFails s) ∧
      ∀ s : Stream, s.size ≤ n → ExprFails s := by
  induction n using Nat.strongRecOn with
  | ind n ih =>
    have hx : ∀ s : Stream, s.size < n → ExprFails s := fun s hs =>
      (ih s.size hs).2.2 s (Nat.le_refl _)
    have hc : ∀ s : Stream, s.size < n → ClimbFails s := fun s hs =>
      (ih s.size hs).2.1 s (Nat.le_refl _)
    have hop : ∀ s : Stream, s.size ≤ n → OperandFails s := fun s hs =>
      operand_fails_of fun s' hs' => hx s' (by omega)
    have hcl : ∀ s : Stream, s.size ≤ n → ClimbFails s := fun s hs =>
      climb_fails_of (fun s' hs' => hx s' (by omega)) (fun s' hs' => hc s' (by omega))
    exact ⟨hop, hcl, fun s hs => expr_fails_of (hop s hs) fun s' hs' => hcl s' (by omega)⟩

/-- A reading with bound `b` that fails for any reason but the parser's bounds fails at the
first token that no phrase of the layer of `b` can read. -/
theorem expr_fails {d b : Nat} {s : Stream} {e : ParseError} (hr : expr d b s = .error e)
    (hd : e.reason ≠ .tooDeep) :
    FailsAt (fun u => ∃ e', Derives maxOpen (layerOf b) (d + 1) e' u)
      (fun w r => (∃ lim n e', Derives lim (layerOf b) n e' w) ∧ ∀ t ∈ r.head?, Stops b t) s e :=
  (fails_of_size s.size).2.2 s (Nat.le_refl _) d b e hr hd

/-- A whole expression that cannot be read fails at the first token that no expression reads,
also where no operand stands at all. -/
theorem expectExpr_fails {r : Reason} {s : Stream} {e : ParseError}
    (h : expectExpr r s = .error e) (hd : e.reason ≠ .tooDeep) :
    FailsAt (fun u => ∃ v, Derives maxOpen .expr 1 v u)
      (fun w r => (∃ lim n v, Derives lim .expr n v w) ∧ ∀ t ∈ r.head?, Stops 0 t) s e := by
  unfold expectExpr at h
  split at h
  · rename_i e' hin
    cases h
    exact expr_fails hin hd
  · rename_i hin
    cases h
    have hnone := expr_none hin
    refine FailsAt.here rfl ⟨[numberToken], .lit 0,
      (numberToken_factor (by decide)).term_of_factor.expr_of_term⟩ ?_
    rintro w r y ⟨⟨lim, n, v, hv⟩, -⟩ heq
    obtain ⟨t, w', rfl, ht⟩ := hv.head_startsFactor rfl
    simp only [List.cons_append, List.cons.injEq] at heq
    exact hnone (heq.1 ▸ ht)
  · cases h

end LangFront.Parse
