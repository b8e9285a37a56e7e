import LangFront.Proofs.ExprFailure
/-!
# Precedence climbing reads as the layered grammar does

Climbing (`expr`) and the layered reader (`layeredExpr`) read expressions alike: unless
climbing is refused by its bounds on nesting and height, both give the same tree with the same
rest of the stream, nothing where no factor starts, or the same error at the same token
(`expr_eq_layeredExpr`).

The two are compared reading by reading, with the rest of the stream as a plain stream and the
height that climbing keeps left out (`dropHeight`, `dropBound`). Each reading is unfolded once
into a step over the readings it calls (`parenStep`, `leafStep`, `thenStep`, `rightStep`); the
steps keep agreement (`Agrees`), so the comparison is one induction on the size of the stream,
over operands, climbing loops and whole readings at once.

Climbing with bound `b` after a first factor reads what the layered reader reads after that
factor in the layer of `b` (`layeredAfter`): both tails for bound zero, the multiplicative one
for bound one and nothing for bound two. An additive operator ends a term, so where climbing
with bound zero meets one, the layered reader has ended its multiplicative tail and goes on
with the additive one.
-/

namespace LangFront.Parse

open Token Grammar Stream

/-! ## Results compared -/

/-- A reading refused by the parser's bounds. -/
def TooDeep {α : Type} (x : Except ParseError α) : Prop :=
  ∃ e, x = .error e ∧ e.reason = .tooDeep

/-- A climbing reading's result without its height, with the rest as a plain stream. -/
def dropHeight {s : Stream} (x : Except ParseError (Option (ExprRead s))) :
    Except ParseError (Option (Expr × Stream)) :=
  x.map (Option.map fun r => (r.1, r.2.2.val))

/-- A layered reading's result with the rest as a plain stream. -/
def dropBound {s : Stream} (y : Except ParseError (Option (Expr × Rest s))) :
    Except ParseError (Option (Expr × Stream)) :=
  y.map (Option.map fun r => (r.1, r.2.val))

/-- A climbing loop's result without its height, with the rest as a plain stream. -/
def dropHeightTail {s : Stream} (x : Except ParseError (ExprRead s)) :
    Except ParseError (Expr × Stream) :=
  x.map fun r => (r.1, r.2.2.val)

/-- A layered tail's result with the rest as a plain stream. -/
def dropBoundTail {s : Stream} (y : Except ParseError (Expr × Rest s)) :
    Except ParseError (Expr × Stream) :=
  y.map fun r => (r.1, r.2.val)

/-- The climbing result `x` agrees with the layered result `y`: it is a refusal of the parser's
bounds, or it is `y`. -/
def Agrees {α : Type} (x y : Except ParseError α) : Prop := TooDeep x ∨ x = y

section
variable {s : Stream}

theorem tooDeep_dropHeight {x : Except ParseError (Option (ExprRead s))} :
    TooDeep (dropHeight x) ↔ TooDeep x := by
  cases x <;> simp [TooDeep, dropHeight, Except.map]

theorem dropHeight_eq_some {x : Except ParseError (Option (ExprRead s))} {e : Expr} {s' : Stream}
    (h : dropHeight x = .ok (some (e, s'))) : ∃ hgt r, x = .ok (some (e, hgt, r)) ∧ r.val = s' := by
  rcases x with err | _ | ⟨e', hgt, r⟩
  · simp [dropHeight, Except.map] at h
  · simp [dropHeight, Except.map] at h
  · simp only [dropHeight, Except.map, Option.map_some, Except.ok.injEq, Option.some.injEq,
      Prod.mk.injEq] at h
    obtain ⟨rfl, rfl⟩ := h
    exact ⟨hgt, r, rfl, rfl⟩

end

/-! ## Steps of a reading -/

/-- After an opening parenthesis: what the inner reading gave, then a closing parenthesis. -/
def parenStep (inner : Except ParseError (Option (Expr × Stream))) (s1 : Stream) :
    Except ParseError (Option (Expr × Stream)) :=
  match inner with
  | .error e => .error e
  | .ok none => .error (stuck .expression s1)
  | .ok (some (e, s2)) =>
    match s2.accept? .closeParen with
    | some (_, s3) => .ok (some (e, s3))
    | none => .error (stuck .closeParen s2)

/-- A number or a name, where no parenthesis opens. -/
def leafStep (s : Stream) : Except ParseError (Option (Expr × Stream)) :=
  if s.peekIs .number then
    match s.current.number? with
    | some n => .ok (some (.lit n, s.advance))
    | none => .error (stuck .valueMissing s)
  else
    match name? s with
    | .error e => .error e
    | .ok none => .ok none
    | .ok (some (x, r)) => .ok (some (.var x, r.val))

/-- A first factor, then what follows it. -/
def thenStep (x : Except ParseError (Option (Expr × Stream)))
    (k : Expr → Stream → Except ParseError (Expr × Stream)) :
    Except ParseError (Option (Expr × Stream)) :=
  match x with
  | .error e => .error e
  | .ok none => .ok none
  | .ok (some (f, s1)) => (k f s1).map some

/-- After an operator: what the right operand's reading gave, then what follows it. -/
def rightStep (x : Except ParseError (Option (Expr × Stream))) (s1 : Stream)
    (k : Expr → Stream → Except ParseError (Expr × Stream)) : Except ParseError (Expr × Stream) :=
  match x with
  | .error e => .error e
  | .ok none => .error (stuck .rightOperand s1)
  | .ok (some (r, s2)) => k r s2

namespace Agrees

variable {α : Type} {x y : Except ParseError (Option (Expr × Stream))}

theorem refl (x : Except ParseError α) : Agrees x x := .inr rfl

theorem parenStep (h : Agrees x y) (s1 : Stream) :
    Agrees (Parse.parenStep x s1) (Parse.parenStep y s1) := by
  rcases h with ⟨e, rfl, he⟩ | rfl
  · exact .inl ⟨e, rfl, he⟩
  · exact refl _

/-- A first factor read alike, and what follows it read alike, is read alike. -/
theorem thenStep {k k' : Expr → Stream → Except ParseError (Expr × Stream)} (h : Agrees x y)
    (hk : ∀ f s1, x = .ok (some (f, s1)) → Agrees (k f s1) (k' f s1)) :
    Agrees (Parse.thenStep x k) (Parse.thenStep y k') := by
  rcases h with ⟨e, rfl, he⟩ | rfl
  · exact .inl ⟨e, rfl, he⟩
  · match x, hk with
    | .error e, _ => exact refl _
    | .ok none, _ => exact refl _
    | .ok (some (f, s1)), hk =>
      rcases hk f s1 rfl with ⟨e, he, hr⟩ | hk'
      · exact .inl ⟨e, by simp [Parse.thenStep, he, Except.map], hr⟩
      · simp only [Parse.thenStep, hk']
        exact refl _

/-- A right operand read alike, and what follows it read alike, is read alike. -/
theorem rightStep {k k' : Expr → Stream → Except ParseError (Expr × Stream)} (h : Agrees x y)
    (s1 : Stream) (hk : ∀ r s2, x = .ok (some (r, s2)) → Agrees (k r s2) (k' r s2)) :
    Agrees (Parse.rightStep x s1 k) (Parse.rightStep y s1 k') := by
  rcases h with ⟨e, rfl, he⟩ | rfl
  · exact .inl ⟨e, rfl, he⟩
  · match x, hk with
    | .error e, _ => exact refl _
    | .ok none, _ => exact refl _
    | .ok (some (r, s2)), hk => exact hk r s2 rfl

end Agrees

/-! ## Climbing, one step at a time -/

section
variable {d b : Nat} {s s1 : Stream} {t : Token}

theorem dropHeight_operand_paren (hp : s.accept? .openParen = some (t, s1)) :
    dropHeight (operand d s) = parenStep (dropHeight (expr d 0 s1)) s1 := by
  rw [operand]
  split
  · rename_i t' s1' hp'
    obtain ⟨-, rfl⟩ : t = t' ∧ s1 = s1' := by simpa [hp] using hp'
    split
    · rename_i e hx
      simp [hx, dropHeight, parenStep, Except.map]
    · rename_i hx
      simp [hx, dropHeight, parenStep, Except.map]
    · rename_i e h s2 h2 hx
      split
      · rename_i t3 s3 hc
        simp [hx, hc, dropHeight, parenStep, Except.map]
      · rename_i hc
        simp [hx, hc, dropHeight, parenStep, Except.map]
  · rename_i hn
    simp [hn] at hp

theorem dropHeight_operand_leaf (hp : s.accept? .openParen = none) :
    dropHeight (operand d s) = leafStep s := by
  rw [operand]
  split
  · rename_i t' s1' hp'
    simp [hp'] at hp
  · unfold leafStep
    split
    · split <;> simp [dropHeight, Except.map, *]
    · split <;> simp [dropHeight, Except.map, *]

theorem expr_tooDeep (hd : maxOpen ≤ d) : expr d b s = .error (stuck .tooDeep s) := by
  rw [expr, if_pos hd]

theorem dropHeight_expr (hd : d < maxOpen) :
    dropHeight (expr d b s) =
      thenStep (dropHeight (operand (d + 1) s))
        (fun f s1 => dropHeightTail (climb (d + 1) b f f.height s1)) := by
  rw [expr, if_neg (by omega)]
  split
  · rename_i e ho
    simp [ho, dropHeight, thenStep, Except.map]
  · rename_i ho
    simp [ho, dropHeight, thenStep, Except.map]
  · rename_i f h s1' h1 ho
    obtain ⟨-, -, -, rfl, -⟩ := operand_sound (by omega) ho
    split
    · rename_i e hc
      simp [ho, hc, dropHeight, dropHeightTail, thenStep, Except.map]
    · rename_i e h' s2 h2 hc
      simp [ho, hc, dropHeight, dropHeightTail, thenStep, Except.map]

theorem dropHeightTail_climb_op {op : Op} {left : Expr} {h : Nat} (hk : Op.ofKind? s.current.kind = some op)
    (hb : b < op.precedence) :
    dropHeightTail (climb d b left h s) =
      rightStep (dropHeight (expr d op.precedence s.advance)) s.advance fun r s2 =>
        if maxHeight < max h r.height + 1 then .error (stuck .tooDeep s2)
        else dropHeightTail (climb d b (.bin op left r) (max h r.height + 1) s2) := by
  rw [climb]
  split
  · rename_i hk'
    rw [hk] at hk'
    cases hk'
  · rename_i op' hk'
    rw [hk, Option.some.injEq] at hk'
    subst hk'
    rw [if_neg (by omega)]
    split
    · rename_i e hx
      simp [hx, dropHeight, dropHeightTail, rightStep, Except.map]
    · rename_i hx
      simp [hx, dropHeight, dropHeightTail, rightStep, Except.map]
    · rename_i r rh s2 h2 hx
      obtain ⟨-, -, -, rfl, -⟩ := expr_sound hx
      split
      · rename_i hmax
        simp [hx, hmax, dropHeight, dropHeightTail, rightStep, Except.map]
      · rename_i hmax
        split
        · rename_i e hc
          simp [hx, hmax, hc, dropHeight, dropHeightTail, rightStep, Except.map]
        · rename_i e h' s3 h3 hc
          simp [hx, hmax, hc, dropHeight, dropHeightTail, rightStep, Except.map]

end

/-! ## The layered reader, one step at a time -/

section
variable {b : Nat} {s s1 : Stream} {t : Token} {left : Expr}

theorem dropBound_layeredFactor_paren (hp : s.accept? .openParen = some (t, s1)) :
    dropBound (layeredFactor s) = parenStep (dropBound (layeredExpr s1)) s1 := by
  rw [layeredFactor]
  split
  · rename_i t' s1' hp'
    obtain ⟨-, rfl⟩ : t = t' ∧ s1 = s1' := by simpa [hp] using hp'
    split
    · rename_i e hx
      simp [hx, dropBound, parenStep, Except.map]
    · rename_i hx
      simp [hx, dropBound, parenStep, Except.map]
    · rename_i e s2 h2 hx
      split
      · rename_i t3 s3 hc
        simp [hx, hc, dropBound, parenStep, Except.map]
      · rename_i hc
        simp [hx, hc, dropBound, parenStep, Except.map]
  · rename_i hn
    simp [hn] at hp

theorem dropBound_layeredFactor_leaf (hp : s.accept? .openParen = none) :
    dropBound (layeredFactor s) = leafStep s := by
  rw [layeredFactor]
  split
  · rename_i t' s1' hp'
    simp [hp'] at hp
  · unfold leafStep
    split
    · split <;> simp [dropBound, Except.map, *]
    · split <;> simp [dropBound, Except.map, *]

theorem dropBound_layeredAt (b : Nat) (s : Stream) :
    dropBound (layeredAt b s) =
      thenStep (dropBound (layeredFactor s)) (fun f s1 => dropBoundTail (layeredAfter b f s1)) := by
  match b with
  | 0 =>
    simp only [layeredAt, layeredAfter]
    rw [layeredExpr, layeredTerm]
    rcases hf : layeredFactor s with e | _ | ⟨f, s1, h1⟩
    · rfl
    · rfl
    · rcases hm : mulTail f s1 with e | ⟨m, s2, h2⟩
      · simp [hm, dropBound, dropBoundTail, thenStep, Except.map]
      · rcases ha : addTail m s2 with e | ⟨e', s3, h3⟩
        · simp [hm, ha, dropBound, dropBoundTail, thenStep, Except.map]
        · simp [hm, ha, dropBound, dropBoundTail, thenStep, Except.map]
  | 1 =>
    simp only [layeredAt, layeredAfter]
    rw [layeredTerm]
    rcases hf : layeredFactor s with e | _ | ⟨f, s1, h1⟩
    · rfl
    · rfl
    · rcases hm : mulTail f s1 with e | ⟨m, s2, h2⟩
      · simp [hm, dropBound, dropBoundTail, thenStep, Except.map]
      · simp [hm, dropBound, dropBoundTail, thenStep, Except.map]
  | _ + 2 =>
    simp only [layeredAt, layeredAfter]
    rcases layeredFactor s with e | _ | ⟨f, s1, h1⟩ <;> rfl

theorem mulTail_of_none (h : mulOp? s.current.kind = none) :
    mulTail left s = .ok (left, Rest.self s) := by
  rw [mulTail]
  split
  · rfl
  · rename_i op hk
    rw [h] at hk
    cases hk

theorem addTail_of_none (h : addOp? s.current.kind = none) :
    addTail left s = .ok (left, Rest.self s) := by
  rw [addTail]
  split
  · rfl
  · rename_i op hk
    rw [h] at hk
    cases hk

theorem mulOp?_of_stops {t : Token} (hs : Stops 1 t) : mulOp? t.kind = none := by
  cases hm : mulOp? t.kind with
  | none => rfl
  | some op =>
    have h := mulOp?_iff.1 hm
    have := hs op h.1
    omega

theorem addOp?_of_stops {t : Token} (hs : Stops 0 t) : addOp? t.kind = none := by
  cases ha : addOp? t.kind with
  | none => rfl
  | some op =>
    have h := addOp?_iff.1 ha
    have := hs op h.1
    omega

theorem layeredAfter_of_stops (hs : Stops b s.current) :
    layeredAfter b left s = .ok (left, Rest.self s) := by
  match b with
  | 0 =>
    simp only [layeredAfter]
    rw [mulTail_of_none (mulOp?_of_stops (hs.mono (by decide)))]
    dsimp only [Rest.self]
    rw [addTail_of_none (addOp?_of_stops hs)]
    rfl
  | 1 =>
    simp only [layeredAfter]
    exact mulTail_of_none (mulOp?_of_stops hs)
  | _ + 2 => rfl

theorem mulTail_of_some {op : Op} (hop : mulOp? s.current.kind = some op) :
    mulTail left s = match layeredFactor s.advance with
      | .error e => .error e
      | .ok none => .error (stuck .rightOperand s.advance)
      | .ok (some (r, ⟨s2, h2⟩)) =>
        match mulTail (.bin op left r) s2 with
        | .error e => .error e
        | .ok (e, ⟨s3, h3⟩) =>
          .ok (e, ⟨s3, h3.trans (h2.trans (size_advance_le s))⟩) := by
  rw [mulTail]
  split
  · rename_i hk
    rw [hop] at hk
    cases hk
  · rename_i op' hk
    rw [hop, Option.some.injEq] at hk
    subst hk
    rfl

theorem addTail_of_some {op : Op} (hop : addOp? s.current.kind = some op) :
    addTail left s = match layeredTerm s.advance with
      | .error e => .error e
      | .ok none => .error (stuck .rightOperand s.advance)
      | .ok (some (r, ⟨s2, h2⟩)) =>
        match addTail (.bin op left r) s2 with
        | .error e => .error e
        | .ok (e, ⟨s3, h3⟩) =>
          .ok (e, ⟨s3, h3.trans (h2.trans (size_advance_le s))⟩) := by
  rw [addTail]
  split
  · rename_i hk
    rw [hop] at hk
    cases hk
  · rename_i op' hk
    rw [hop, Option.some.injEq] at hk
    subst hk
    rfl

theorem dropBoundTail_layeredAfter_mul {op : Op} (hop : mulOp? s.current.kind = some op)
    (hb : b ≤ 1) :
    dropBoundTail (layeredAfter b left s) =
      rightStep (dropBound (layeredFactor s.advance)) s.advance
        (fun r s2 => dropBoundTail (layeredAfter b (.bin op left r) s2)) := by
  match b, hb with
  | 0, _ =>
    simp only [layeredAfter]
    rw [mulTail_of_some hop]
    rcases layeredFactor s.advance with e | _ | ⟨r, s2, h2⟩
    · rfl
    · rfl
    · rcases hm : mulTail (.bin op left r) s2 with e | ⟨m, s3, h3⟩
      · simp [hm, dropBound, dropBoundTail, rightStep, Except.map]
      · rcases ha : addTail m s3 with e | ⟨e', s4, h4⟩
        · simp [hm, ha, dropBound, dropBoundTail, rightStep, Except.map]
        · simp [hm, ha, dropBound, dropBoundTail, rightStep, Except.map]
  | 1, _ =>
    simp only [layeredAfter]
    rw [mulTail_of_some hop]
    rcases layeredFactor s.advance with e | _ | ⟨r, s2, h2⟩
    · rfl
    · rfl
    · rcases hm : mulTail (.bin op left r) s2 with e | ⟨m, s3, h3⟩
      · simp [hm, dropBound, dropBoundTail, rightStep, Except.map]
      · simp [hm, dropBound, dropBoundTail, rightStep, Except.map]

theorem dropBoundTail_layeredAfter_add {op : Op} (hop : addOp? s.current.kind = some op) :
    dropBoundTail (layeredAfter 0 left s) =
      rightStep (dropBound (layeredTerm s.advance)) s.advance
        (fun r s2 => dropBoundTail (addTail (.bin op left r) s2)) := by
  have hnone : mulOp? s.current.kind = none := by
    cases hs : s.current.kind <;> simp_all [addOp?, mulOp?]
  simp only [layeredAfter]
  rw [mulTail_of_none hnone]
  dsimp only [Rest.self]
  rw [addTail_of_some hop]
  rcases layeredTerm s.advance with e | _ | ⟨r, s2, h2⟩
  · rfl
  · rfl
  · rcases ha : addTail (.bin op left r) s2 with e | ⟨e', s3, h3⟩
    · simp [ha, dropBound, dropBoundTail, rightStep, Except.map]
    · simp [ha, dropBound, dropBoundTail, rightStep, Except.map]

theorem dropBoundTail_layeredAfter_of_stops_one (hs : Stops 1 s.current) :
    dropBoundTail (layeredAfter 0 left s) = dropBoundTail (addTail left s) := by
  simp only [layeredAfter]
  rw [mulTail_of_none (mulOp?_of_stops hs)]
  dsimp only [Rest.self]
  rcases addTail left s with e | ⟨e', s2, h2⟩ <;> rfl

end

/-! ## Climbing agrees with the layered reader -/

/-- What an operand reading from `s` gives, against a layered factor. -/
private def OperandAgrees (s : Stream) : Prop :=
  ∀ d, Agrees (dropHeight (operand d s)) (dropBound (layeredFactor s))

/-- What a climbing loop from `s` gives, against the rest of the layered reader's layer. -/
private def ClimbAgrees (s : Stream) : Prop :=
  ∀ d b left h, Agrees (dropHeightTail (climb d b left h s)) (dropBoundTail (layeredAfter b left s))

/-- What a reading with bound `b` from `s` gives, against the layered reading of its layer. -/
private def ExprAgrees (s : Stream) : Prop :=
  ∀ d b, Agrees (dropHeight (expr d b s)) (dropBound (layeredAt b s))

private theorem operand_agrees_of {s : Stream}
    (hx : ∀ s' : Stream, s'.size < s.size → ExprAgrees s') : OperandAgrees s := by
  intro d
  rcases hp : s.accept? .openParen with _ | ⟨t, s1⟩
  · rw [dropHeight_operand_leaf hp, dropBound_layeredFactor_leaf hp]
    exact .refl _
  · rw [dropHeight_operand_paren hp, dropBound_layeredFactor_paren hp]
    exact (hx s1 (size_lt_of_accept? hp (by decide)) d 0).parenStep s1

private theorem climb_agrees_of {s : Stream}
    (hx : ∀ s' : Stream, s'.size < s.size → ExprAgrees s')
    (hc : ∀ s' : Stream, s'.size < s.size → ClimbAgrees s') : ClimbAgrees s := by
  intro d b left h
  by_cases hs : Stops b s.current
  · rw [climb_stop hs, layeredAfter_of_stops hs]
    exact .refl _
  obtain ⟨op, hk, hb⟩ : ∃ op, Op.ofKind? s.current.kind = some op ∧ b < op.precedence := by
    simp only [Stops, Classical.not_forall] at hs
    obtain ⟨op, hk, hb⟩ := hs
    exact ⟨op, hk, by omega⟩
  have h₁ : s.advance.size < s.size := size_advance_lt (Op.ne_endOfFile_of_ofKind? hk)
  have hnext : ∀ r s2, dropHeight (expr d op.precedence s.advance) = .ok (some (r, s2)) →
      Agrees (if maxHeight < max h r.height + 1 then .error (stuck .tooDeep s2)
        else dropHeightTail (climb d b (.bin op left r) (max h r.height + 1) s2))
        (dropBoundTail (layeredAfter b (.bin op left r) s2)) := by
    intro r s2 hr
    obtain ⟨_, ⟨s2, h₂⟩, -, rfl⟩ := dropHeight_eq_some hr
    split
    · exact .inl ⟨_, rfl, rfl⟩
    · exact hc s2 (by omega) d b (.bin op left r) _
  rw [dropHeightTail_climb_op hk hb]
  rcases precedence_eq_one_or_two op with hp | hp
  · obtain rfl : b = 0 := by omega
    have hadd := addOp?_iff.2 ⟨hk, hp⟩
    rw [dropBoundTail_layeredAfter_add hadd]
    have hr := hx s.advance h₁ d op.precedence
    rw [hp] at hr hnext ⊢
    refine hr.rightStep s.advance fun r s2 hr₂ => ?_
    obtain ⟨_, r', hr', rfl⟩ := dropHeight_eq_some hr₂
    obtain ⟨-, -, -, -, -, hst⟩ := expr_sound hr'
    rw [← dropBoundTail_layeredAfter_of_stops_one hst]
    exact hnext r r'.val hr₂
  · have hmul := mulOp?_iff.2 ⟨hk, hp⟩
    rw [dropBoundTail_layeredAfter_mul hmul (by omega)]
    have hr := hx s.advance h₁ d op.precedence
    rw [hp] at hr hnext ⊢
    exact hr.rightStep s.advance hnext

private theorem expr_agrees_of {s : Stream} (ho : OperandAgrees s)
    (hc : ∀ s' : Stream, s'.size ≤ s.size → ClimbAgrees s') : ExprAgrees s := by
  intro d b
  by_cases hd : maxOpen ≤ d
  · exact .inl (tooDeep_dropHeight.2 ⟨_, expr_tooDeep hd, rfl⟩)
  · rw [dropHeight_expr (by omega), dropBound_layeredAt]
    refine (ho (d + 1)).thenStep fun f s1 hf => ?_
    obtain ⟨_, ⟨s1, h₁⟩, -, rfl⟩ := dropHeight_eq_some hf
    exact hc s1 h₁ (d + 1) b f f.height

/-- By induction on the size of the stream, in the order of `sound_of_size`. -/
private theorem agrees_of_size (n : Nat) :
    (∀ s : Stream, s.size ≤ n → OperandAgrees s) ∧ (∀ s : Stream, s.size ≤ n → ClimbAgrees s) ∧
      ∀ s : Stream, s.size ≤ n → ExprAgrees s := by
  induction n using Nat.strongRecOn with
  | ind n ih =>
    have hx : ∀ s : Stream, s.size < n → ExprAgrees s := fun s hs =>
      (ih s.size hs).2.2 s (Nat.le_refl _)
    have hc : ∀ s : Stream, s.size < n → ClimbAgrees s := fun s hs =>
      (ih s.size hs).2.1 s (Nat.le_refl _)
    have hop : ∀ s : Stream, s.size ≤ n → OperandAgrees s := fun s hs =>
      operand_agrees_of fun s' hs' => hx s' (by omega)
    have hcl : ∀ s : Stream, s.size ≤ n → ClimbAgrees s := fun s hs =>
      climb_agrees_of (fun s' hs' => hx s' (by omega)) (fun s' hs' => hc s' (by omega))
    exact ⟨hop, hcl, fun s hs => expr_agrees_of (hop s hs) fun s' hs' => hcl s' (by omega)⟩

/-- A reading with bound `b` gives what the layered reading of its layer gives, unless the
parser's bounds refuse it. -/
theorem expr_agrees (d b : Nat) (s : Stream) : Agrees (dropHeight (expr d b s)) (dropBound (layeredAt b s)) :=
  (agrees_of_size s.size).2.2 s (Nat.le_refl _) d b

/-- Precedence climbing from level zero reads as the layered grammar. Unless its bounds refuse
the reading, it gives what the layered reader gives: the same tree with the same rest of the
stream, nothing where no factor starts, or the same error at the same token. An expression of
the grammar within the bounds, followed by a token that cannot continue it, both read whole. -/
theorem expr_eq_layeredExpr :
    (∀ s : Stream, TooDeep (expr 0 0 s) ∨ dropHeight (expr 0 0 s) = dropBound (layeredExpr s)) ∧
    ∀ (e : Expr) (u : List Token) (s s' : Stream), Derives maxOpen .expr 1 e u →
      e.height ≤ maxHeight → Reads s u s' → Stops 0 s'.current →
        dropHeight (expr 0 0 s) = .ok (some (e, s')) ∧
          dropBound (layeredExpr s) = .ok (some (e, s')) := by
  have hagree : ∀ s : Stream,
      TooDeep (expr 0 0 s) ∨ dropHeight (expr 0 0 s) = dropBound (layeredExpr s) :=
    fun s => (expr_agrees 0 0 s).imp_left tooDeep_dropHeight.1
  refine ⟨hagree, fun e u s s' he hh hr hs => ?_⟩
  obtain ⟨r, hx, rfl⟩ := expr_complete (d := 0) he hr hs hh
  have hclimb : dropHeight (expr 0 0 s) = .ok (some (e, r.val)) := by
    rw [hx]
    rfl
  refine ⟨hclimb, ?_⟩
  rcases hagree s with ⟨_, hx', -⟩ | hlayered
  · rw [hx] at hx'
    cases hx'
  · rw [← hlayered, hclimb]

/-- A sum of two names, followed by a semicolon: both readers give the sum and stop at the
semicolon. -/
theorem expr_eq_layeredExpr_sum :
    dropHeight (expr 0 0 (ofList [.ofName "a" default, ⟨.plus, none, default⟩,
        .ofName "b" default, ⟨.semicolon, none, default⟩])) =
      .ok (some (.bin .add (.var "a") (.var "b"), (ofList [.ofName "a" default,
        ⟨.plus, none, default⟩, .ofName "b" default, ⟨.semicolon, none, default⟩]).advance.advance.advance)) ∧
    dropBound (layeredExpr (ofList [.ofName "a" default, ⟨.plus, none, default⟩,
        .ofName "b" default, ⟨.semicolon, none, default⟩])) =
      .ok (some (.bin .add (.var "a") (.var "b"), (ofList [.ofName "a" default,
        ⟨.plus, none, default⟩, .ofName "b" default, ⟨.semicolon, none, default⟩]).advance.advance.advance)) := by
  have ha : Derives maxOpen .term 1 (.var "a") [.ofName "a" default] :=
    .term_of_factor (.name (by decide) ⟨rfl, rfl⟩)
  have hb : Derives maxOpen .term 2 (.var "b") [.ofName "b" default] :=
    .term_of_factor (.name (by decide) ⟨rfl, rfl⟩)
  have he := Derives.expr_add (t := ⟨.plus, none, default⟩) ha rfl hb
  exact expr_eq_layeredExpr.2 _ _ _ _ he (by decide) ⟨rfl, rfl⟩ (stops_of_kind rfl)

end LangFront.Parse
