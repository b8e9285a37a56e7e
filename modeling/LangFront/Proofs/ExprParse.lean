import LangFront.Proofs.Grammar
import LangFront.Proofs.Stream
/-!
# Precedence climbing reads the layered grammar

Climbing with bound `b` reads an operand and then every operator that binds tighter than `b`
with its right operand, which is itself read with the operator's precedence as its bound. So a
reading with bound zero reads an expression, one with bound one (after an additive operator) a
term, and one with bound two (after a multiplicative operator) a single factor (`layerOf`). What
the climbing loop reads after its first operand is a multiplicative tail followed by an additive
one for bound zero, and a multiplicative tail for bound one (`ClimbTail`).

The two directions are proved separately:

* `expr_sound`: a reading that succeeds has read a phrase of its layer, at the level it was
  started at, and stops at a token that cannot continue that layer. The proof is by induction
  on the size of the stream, over the three readings at once.
* `expr_complete`: a phrase of the grammar within the parser's bounds, followed by a token that
  is no operator, is read whole. The proof is by induction on the derivation; a term is read
  together with whatever climbing goes on to read after it, since the first term of an
  expression is not read by a reading of its own.
-/

namespace LangFront.Parse

open Token Grammar Stream

/-! ## Operators and layers -/

theorem precedence_eq_one_or_two (op : Op) : op.precedence = 1 ∨ op.precedence = 2 := by
  cases op <;> simp [Op.precedence]

theorem addOp?_iff {k : Kind} {op : Op} :
    addOp? k = some op ↔ Op.ofKind? k = some op ∧ op.precedence = 1 := by
  cases k <;> cases op <;> simp [addOp?, Op.ofKind?, Op.precedence]

theorem mulOp?_iff {k : Kind} {op : Op} :
    mulOp? k = some op ↔ Op.ofKind? k = some op ∧ op.precedence = 2 := by
  cases k <;> cases op <;> simp [mulOp?, Op.ofKind?, Op.precedence]

/-- The token is no operator that binds tighter than `b`: a reading with bound `b` stops there. -/
def Stops (b : Nat) (t : Token) : Prop := ∀ op, Op.ofKind? t.kind = some op → op.precedence ≤ b

theorem stops_two (t : Token) : Stops 2 t := fun op _ => Op.precedence_le_two op

theorem Stops.mono {b b' : Nat} {t : Token} (h : Stops b t) (hb : b ≤ b') : Stops b' t :=
  fun op hop => Nat.le_trans (h op hop) hb

theorem stops_of_kind {b : Nat} {t : Token} (h : Op.ofKind? t.kind = none) : Stops b t := by
  intro op hop
  rw [h] at hop
  cases hop

/-- The layer of the grammar that a reading with bound `b` reads. -/
def layerOf : Nat → Sym
  | 0 => .expr
  | 1 => .term
  | _ => .factor

/-- What the climbing loop with bound `b` reads after `left`, to yield `e`. -/
def ClimbTail (lim b n : Nat) (left e : Expr) (u : List Token) : Prop :=
  match b with
  | 0 => ∃ m u₁ u₂, u = u₁ ++ u₂ ∧ Derives lim (.mulTail left) n m u₁ ∧
      Derives lim (.addTail m) n e u₂
  | 1 => Derives lim (.mulTail left) n e u
  | _ + 2 => u = [] ∧ e = left

theorem climbTail_nil {lim b n : Nat} {left : Expr} : ClimbTail lim b n left left [] := by
  match b with
  | 0 => exact ⟨left, [], [], rfl, .mulNil, .addNil⟩
  | 1 => exact .mulNil
  | _ + 2 => exact ⟨rfl, rfl⟩

theorem derives_layerOf {lim b n : Nat} {f e : Expr} {u v : List Token}
    (hf : Derives lim .factor n f u) (hv : ClimbTail lim b n f e v) :
    Derives lim (layerOf b) n e (u ++ v) := by
  match b, hv with
  | 0, ⟨m, v₁, v₂, hv, hm, ha⟩ =>
    rw [hv, ← List.append_assoc]
    exact .expr (.term hf hm) ha
  | 1, hm => exact .term hf hm
  | _ + 2, ⟨hv, he⟩ =>
    subst hv he
    simpa [layerOf] using hf

theorem mulTail_eq_nil {lim n : Nat} {left m : Expr} {u v : List Token}
    (h : Derives lim (.mulTail left) n m u)
    (hstop : ∀ t w, u ++ v = t :: w → Stops 1 t) : u = [] ∧ m = left := by
  cases h with
  | mulNil => exact ⟨rfl, rfl⟩
  | @mulCons _ _ _ _ op t _ _ hop _ _ =>
    have hop' := (mulOp?_iff.1 hop)
    have := hstop t _ rfl op hop'.1
    omega

theorem climbTail_cons {lim b n : Nat} {op : Op} {t : Token} {left r e : Expr} {u v : List Token}
    (hk : Op.ofKind? t.kind = some op) (hb : b < op.precedence)
    (hr : Derives lim (layerOf op.precedence) (n + 1) r u)
    (hv : ClimbTail lim b n (.bin op left r) e v)
    (hstop : ∀ t' w, v = t' :: w → Stops op.precedence t') :
    ClimbTail lim b n left e (t :: u ++ v) := by
  rcases precedence_eq_one_or_two op with hp | hp
  · rw [hp] at hr hb hstop
    have hadd := addOp?_iff.2 ⟨hk, hp⟩
    match b, hv with
    | 0, ⟨m, v₁, v₂, hv, hm, ha⟩ =>
      obtain ⟨rfl, rfl⟩ := mulTail_eq_nil hm (fun t' w h => hstop t' w (hv.trans h))
      exact ⟨left, [], t :: u ++ v, rfl, .mulNil, by simpa [hv] using .addCons hadd hr ha⟩
  · rw [hp] at hr hb
    have hmul := mulOp?_iff.2 ⟨hk, hp⟩
    match b, hv with
    | 0, ⟨m, v₁, v₂, hv, hm, ha⟩ =>
      exact ⟨m, t :: u ++ v₁, v₂, by simp [hv], .mulCons hmul hr hm, ha⟩
    | 1, hm => exact .mulCons hmul hr hm

/-! ## Reading steps -/

@[simp] theorem Rest.self_val (s : Stream) : (Rest.self s).val = s := rfl

theorem Reads.of_accept? {s s' : Stream} {k : Kind} {t : Token} (h : s.accept? k = some (t, s'))
    (hk : k ≠ .endOfFile) : t.kind = k ∧ Reads s [t] s' := by
  obtain ⟨h1, rfl, rfl⟩ := accept?_eq_some.1 h
  exact ⟨h1, (Reads.single_iff (h1 ▸ hk)).2 ⟨rfl, rfl⟩⟩

theorem reads_advance {s : Stream} (h : s.current.kind ≠ .endOfFile) :
    Reads s [s.current] s.advance :=
  (Reads.single_iff h).2 ⟨rfl, rfl⟩

theorem name?_eq_some {s : Stream} {x : String} {r : Rest s}
    (h : name? s = .ok (some (x, r))) : NameToken s.current x ∧ Reads s [s.current] r.val := by
  unfold name? at h
  split at h
  · rename_i hid
    split at h
    · rename_i y hy
      cases h
      have hk : s.current.kind = .identifier := by simpa [Stream.peekIs] using hid
      exact ⟨⟨hk, hy⟩, reads_advance (by rw [hk]; decide)⟩
    · cases h
  · cases h

/-! ## Soundness -/

/-- What an operand reading from `s` that succeeds has read. -/
private def OperandSound (s : Stream) : Prop :=
  ∀ n e h (r : Rest s), n ≤ maxOpen → operand n s = .ok (some (e, h, r)) →
    ∃ u, Derives maxOpen .factor n e u ∧ Reads s u r.val ∧ h = e.height ∧ e.height ≤ maxHeight

/-- What a climbing loop from `s` that succeeds has read. -/
private def ClimbSound (s : Stream) : Prop :=
  ∀ n b left e h h' (r : Rest s), h = left.height → left.height ≤ maxHeight →
    climb n b left h s = .ok (e, h', r) →
      ∃ u, ClimbTail maxOpen b n left e u ∧ Reads s u r.val ∧ h' = e.height ∧
        e.height ≤ maxHeight ∧ Stops b r.val.current

/-- What an expression reading from `s` that succeeds has read. -/
private def ExprSound (s : Stream) : Prop :=
  ∀ d b e h (r : Rest s), expr d b s = .ok (some (e, h, r)) →
    ∃ u, Derives maxOpen (layerOf b) (d + 1) e u ∧ Reads s u r.val ∧ h = e.height ∧
      e.height ≤ maxHeight ∧ Stops b r.val.current

private theorem operand_sound_of {s : Stream}
    (hx : ∀ s' : Stream, s'.size < s.size → ExprSound s') : OperandSound s := by
  intro n e h r hn hr
  unfold operand at hr
  split at hr
  · rename_i t₁ s₁ hp
    have h₁ : s₁.size < s.size := Stream.size_lt_of_accept? hp (by decide)
    split at hr
    · cases hr
    · cases hr
    · rename_i e' h'' s₂ h₂ hin
      split at hr
      · rename_i t₃ s₃ hc
        cases hr
        obtain ⟨u, hd, hu, rfl, hh, -⟩ := hx s₁ h₁ n 0 e h ⟨s₂, h₂⟩ hin
        obtain ⟨ho, hr₁⟩ := Reads.of_accept? hp (by decide)
        obtain ⟨hcl, hr₃⟩ := Reads.of_accept? hc (by decide)
        exact ⟨t₁ :: u ++ [t₃], .paren ho hd hcl, hr₁.trans (hu.trans hr₃), rfl, hh⟩
      · cases hr
  · split at hr
    · rename_i hnum
      split at hr
      · rename_i v hv
        cases hr
        have hk : s.current.kind = .number := by simpa [Stream.peekIs] using hnum
        exact ⟨[s.current], .number hn ⟨hk, hv⟩, reads_advance (by rw [hk]; decide), rfl,
          by simp [maxHeight]⟩
      · cases hr
    · split at hr
      · cases hr
      · cases hr
      · rename_i x r' hname
        cases hr
        obtain ⟨hx', hr'⟩ := name?_eq_some hname
        exact ⟨[s.current], .name hn hx', hr', rfl, by simp [maxHeight]⟩

private theorem climb_sound_of {s : Stream}
    (hx : ∀ s' : Stream, s'.size < s.size → ExprSound s')
    (hc : ∀ s' : Stream, s'.size < s.size → ClimbSound s') : ClimbSound s := by
  intro n b left e h h' r hh hl hr
  unfold climb at hr
  split at hr
  · rename_i hk
    cases hr
    exact ⟨[], climbTail_nil, Reads.refl s, hh, hl, stops_of_kind hk⟩
  · rename_i op hk
    split at hr
    · rename_i hb
      cases hr
      refine ⟨[], climbTail_nil, Reads.refl s, hh, hl, fun op' hop' => ?_⟩
      rw [Rest.self_val, hk] at hop'
      cases hop'
      exact hb
    · rename_i hb
      have h₁ : s.advance.size < s.size := Stream.size_advance_lt (Op.ne_endOfFile_of_ofKind? hk)
      split at hr
      · cases hr
      · cases hr
      · rename_i r' rh s₂ h₂ hin
        split at hr
        · cases hr
        · rename_i hmax
          split at hr
          · cases hr
          · rename_i e₂ h₃ s₃ h₄ hcl
            cases hr
            obtain ⟨u, hd, hu, rfl, hrh, hstop⟩ := hx s.advance h₁ n op.precedence r' rh ⟨s₂, h₂⟩ hin
            have hbin : (Expr.bin op left r').height ≤ maxHeight := by
              simp only [Expr.height_bin]
              omega
            obtain ⟨v, hv, hvr, rfl, he, hst⟩ :=
              hc s₂ (by omega) n b (.bin op left r') e (max h r'.height + 1) h' ⟨s₃, h₄⟩
                (by simp [hh]) hbin hcl
            refine ⟨s.current :: u ++ v, climbTail_cons hk (by omega) hd hv ?_, ?_, rfl, he, hst⟩
            · intro t' w hv'
              subst hv'
              rw [← Reads.current_eq_of_cons hvr]
              exact hstop
            · exact (reads_advance (Op.ne_endOfFile_of_ofKind? hk)).trans (hu.trans hvr)

private theorem expr_sound_of {s : Stream} (ho : OperandSound s)
    (hc : ∀ s' : Stream, s'.size ≤ s.size → ClimbSound s') : ExprSound s := by
  intro d b e h r hr
  unfold expr at hr
  split at hr
  · cases hr
  · rename_i hd
    split at hr
    · cases hr
    · cases hr
    · rename_i f hf s₁ h₁ hop
      split at hr
      · cases hr
      · rename_i e' h' s₂ h₂ hcl
        cases hr
        obtain ⟨u, hfu, hu, rfl, hfh⟩ := ho (d + 1) f hf ⟨s₁, h₁⟩ (by omega) hop
        obtain ⟨v, hv, hvr, rfl, he, hst⟩ := hc s₁ h₁ (d + 1) b f e f.height h ⟨s₂, h₂⟩ rfl hfh hcl
        exact ⟨u ++ v, derives_layerOf hfu hv, hu.trans hvr, rfl, he, hst⟩

/-- By induction on the size of the stream: at each size, operands and climbing loops first,
since they only start readings on shorter streams, then expressions. -/
private theorem sound_of_size (n : Nat) :
    (∀ s : Stream, s.size ≤ n → OperandSound s) ∧ (∀ s : Stream, s.size ≤ n → ClimbSound s) ∧
      ∀ s : Stream, s.size ≤ n → ExprSound s := by
  induction n using Nat.strongRecOn with
  | ind n ih =>
    have hx : ∀ s : Stream, s.size < n → ExprSound s := fun s hs =>
      (ih s.size hs).2.2 s (Nat.le_refl _)
    have hc : ∀ s : Stream, s.size < n → ClimbSound s := fun s hs =>
      (ih s.size hs).2.1 s (Nat.le_refl _)
    have hop : ∀ s : Stream, s.size ≤ n → OperandSound s := fun s hs =>
      operand_sound_of fun s' hs' => hx s' (by omega)
    have hcl : ∀ s : Stream, s.size ≤ n → ClimbSound s := fun s hs =>
      climb_sound_of (fun s' hs' => hx s' (by omega)) (fun s' hs' => hc s' (by omega))
    exact ⟨hop, hcl, fun s hs => expr_sound_of (hop s hs) fun s' hs' => hcl s' (by omega)⟩

/-- A reading with bound `b` that succeeds has read a phrase of the layer of `b` at the level it
was started at, within the parser's bounds, and stops at a token that cannot continue it. -/
theorem expr_sound {d b : Nat} {s : Stream} {e : Expr} {h : Nat} {r : Rest s}
    (hr : expr d b s = .ok (some (e, h, r))) :
    ∃ u, Derives maxOpen (layerOf b) (d + 1) e u ∧ Reads s u r.val ∧ h = e.height ∧
      e.height ≤ maxHeight ∧ Stops b r.val.current :=
  (sound_of_size s.size).2.2 s (Nat.le_refl _) d b e h r hr

theorem operand_sound {n : Nat} {s : Stream} {e : Expr} {h : Nat} {r : Rest s} (hn : n ≤ maxOpen)
    (hr : operand n s = .ok (some (e, h, r))) :
    ∃ u, Derives maxOpen .factor n e u ∧ Reads s u r.val ∧ h = e.height ∧ e.height ≤ maxHeight :=
  (sound_of_size s.size).1 s (Nat.le_refl _) n e h r hn hr

/-! ## Completeness -/

theorem climb_stop {n b : Nat} {left : Expr} {h : Nat} {s : Stream} (hs : Stops b s.current) :
    climb n b left h s = .ok (left, h, Rest.self s) := by
  unfold climb
  split
  · rfl
  · rename_i op hk
    rw [if_pos (hs op hk)]

theorem climb_cons {n b : Nat} {left r e : Expr} {h rh h' : Nat} {s s₁ : Stream} {op : Op}
    {r₁ : Rest s.advance} {r₂ : Rest s₁}
    (hk : Op.ofKind? s.current.kind = some op) (hb : b < op.precedence)
    (hr : expr n op.precedence s.advance = .ok (some (r, rh, r₁))) (hr₁ : r₁.val = s₁)
    (hh : max h rh + 1 ≤ maxHeight)
    (hc : climb n b (.bin op left r) (max h rh + 1) s₁ = .ok (e, h', r₂)) :
    ∃ r₃, climb n b left h s = .ok (e, h', r₃) ∧ r₃.val = r₂.val := by
  obtain ⟨s₁, hs₁⟩ := r₁
  subst hr₁
  obtain ⟨s₂, hs₂⟩ := r₂
  rw [climb]
  split
  · rename_i hk'
    rw [hk] at hk'
    cases hk'
  · rename_i op' hk'
    rw [hk] at hk'
    cases hk'
    rw [if_neg (by omega)]
    simp only [hr]
    rw [if_neg (by omega)]
    simp only [hc]
    exact ⟨_, rfl, rfl⟩

theorem expr_of_climb {d b : Nat} {f e : Expr} {hf h : Nat} {s : Stream} {r₁ : Rest s}
    {r₂ : Rest r₁.val} (hd : d < maxOpen) (ho : operand (d + 1) s = .ok (some (f, hf, r₁)))
    (hc : climb (d + 1) b f hf r₁.val = .ok (e, h, r₂)) :
    ∃ r, expr d b s = .ok (some (e, h, r)) ∧ r.val = r₂.val := by
  obtain ⟨s₁, hs₁⟩ := r₁
  obtain ⟨s₂, hs₂⟩ := r₂
  rw [expr, if_neg (by omega)]
  simp only [ho]
  simp only [hc]
  exact ⟨_, rfl, rfl⟩

theorem operand_number {n : Nat} {s : Stream} {v : Int32} (h : NumberToken s.current v) :
    ∃ r, operand n s = .ok (some (.lit v, 0, r)) ∧ r.val = s.advance := by
  rw [operand]
  split
  · rename_i t s₁ hp
    have hk := (accept?_eq_some.1 hp).1
    rw [h.1] at hk
    cases hk
  · rw [if_pos (by simp [Stream.peekIs, h.1])]
    simp only [h.2]
    exact ⟨_, rfl, rfl⟩

theorem name?_of_nameToken {s : Stream} {x : String} (h : NameToken s.current x) :
    name? s = .ok (some (x, ⟨s.advance, Stream.size_advance_le s⟩)) := by
  rw [name?, if_pos (by simp [Stream.peekIs, h.1])]
  simp only [h.2]

theorem operand_name {n : Nat} {s : Stream} {x : String} (h : NameToken s.current x) :
    ∃ r, operand n s = .ok (some (.var x, 0, r)) ∧ r.val = s.advance := by
  rw [operand]
  split
  · rename_i t s₁ hp
    have hk := (accept?_eq_some.1 hp).1
    rw [h.1] at hk
    cases hk
  · rw [if_neg (by simp [Stream.peekIs, h.1]), name?_of_nameToken h]
    exact ⟨_, rfl, rfl⟩

theorem operand_paren {n : Nat} {e : Expr} {h : Nat} {s : Stream} {r₁ : Rest s.advance}
    (ho : s.current.kind = .openParen) (hr : expr n 0 s.advance = .ok (some (e, h, r₁)))
    (hc : r₁.val.current.kind = .closeParen) :
    ∃ r, operand n s = .ok (some (e, h, r)) ∧ r.val = r₁.val.advance := by
  obtain ⟨s₁, hs₁⟩ := r₁
  rw [operand]
  split
  · rename_i t s' hp
    obtain ⟨-, -, rfl⟩ := accept?_eq_some.1 hp
    simp only [hr]
    split
    · rename_i t' s'' hc'
      obtain ⟨-, -, rfl⟩ := accept?_eq_some.1 hc'
      exact ⟨_, rfl, rfl⟩
    · rename_i hc'
      exact absurd hc (accept?_eq_none.1 hc')
  · rename_i hp
    exact absurd ho (accept?_eq_none.1 hp)

/-- What reading a phrase of the symbol whole amounts to, for each symbol: an operand for a
factor; for a term, a reading with bound at most one together with the climbing that follows the
term; a reading with bound zero for an expression; and for a tail, the climbing loop that goes
on from its last tree. -/
private def Complete : Sym → Nat → Expr → List Token → Prop
  | .factor, n, e, u => ∀ s s', Reads s u s' → e.height ≤ maxHeight →
      ∃ r, operand n s = .ok (some (e, e.height, r)) ∧ r.val = s'
  | .term, n, e, u => ∀ b d s s' e' h' (r' : Rest s'), b ≤ 1 → n = d + 1 → Reads s u s' →
      e.height ≤ maxHeight → climb n b e e.height s' = .ok (e', h', r') →
        ∃ r, expr d b s = .ok (some (e', h', r)) ∧ r.val = r'.val
  | .expr, n, e, u => ∀ d s s', n = d + 1 → Reads s u s' → Stops 0 s'.current →
      e.height ≤ maxHeight → ∃ r, expr d 0 s = .ok (some (e, e.height, r)) ∧ r.val = s'
  | .mulTail left, n, e, u => ∀ b s s' e' h' (r' : Rest s'), b ≤ 1 → Reads s u s' →
      e.height ≤ maxHeight → climb n b e e.height s' = .ok (e', h', r') →
        ∃ r, climb n b left left.height s = .ok (e', h', r) ∧ r.val = r'.val
  | .addTail left, n, e, u => ∀ s s' e' h' (r' : Rest s'), Reads s u s' → Stops 1 s'.current →
      e.height ≤ maxHeight → climb n 0 e e.height s' = .ok (e', h', r') →
        ∃ r, climb n 0 left left.height s = .ok (e', h', r) ∧ r.val = r'.val

private theorem stops_before_addTail {n : Nat} {left e : Expr} {v : List Token} {s s' : Stream}
    (ha : Derives maxOpen (.addTail left) n e v) (hr : Reads s v s') (hs : Stops 1 s'.current) :
    Stops 1 s.current := by
  match v, ha with
  | [], _ => rwa [Reads.nil_iff.1 hr] at hs
  | t :: w, ha =>
    obtain ⟨op, hop⟩ := addTail_head ha
    intro op' hop'
    rw [Reads.current_eq_of_cons hr, (addOp?_iff.1 hop).1] at hop'
    cases hop'
    exact Nat.le_of_eq (addOp?_iff.1 hop).2

private theorem complete {g : Sym} {n : Nat} {e : Expr} {u : List Token}
    (h : Derives maxOpen g n e u) : Complete g n e u := by
  induction h with
  | @number n t v _ ht =>
    intro s s' hr _
    obtain ⟨rfl, rfl⟩ := (Reads.single_iff (by rw [ht.1]; decide)).1 hr
    exact operand_number ht
  | @name n t x _ ht =>
    intro s s' hr _
    obtain ⟨rfl, rfl⟩ := (Reads.single_iff (by rw [ht.1]; decide)).1 hr
    exact operand_name ht
  | @paren n e u o c ho _ hc ih =>
    intro s s' hr hh
    obtain ⟨rfl, hrest⟩ := (Reads.cons_iff (by rw [ho]; decide)).1 hr
    obtain ⟨s₁, hr₁, hr₂⟩ := Reads.split hrest
    obtain ⟨rfl, rfl⟩ := (Reads.single_iff (by rw [hc]; decide)).1 hr₂
    obtain ⟨r, hexpr, rfl⟩ := ih n s.advance s₁ rfl hr₁ (stops_of_kind (by rw [hc]; rfl)) hh
    exact operand_paren ho hexpr hc
  | @term n f e u v hf hm ihf ihm =>
    intro b d s s' e' h' r' hb hn hr hh hcl
    obtain ⟨s₁, hr₁, hr₂⟩ := Reads.split hr
    have hfe : f.height ≤ e.height := hm.height_left_le f rfl
    obtain ⟨r₁, hop, rfl⟩ := ihf s s₁ hr₁ (by omega)
    obtain ⟨r₂, hcl', hr₂'⟩ := ihm b r₁.val s' e' h' r' hb hr₂ hh hcl
    have hd : d < maxOpen := by have := hf.level_le rfl; omega
    subst hn
    obtain ⟨r, hx, hrx⟩ := expr_of_climb hd hop hcl'
    exact ⟨r, hx, hrx.trans hr₂'⟩
  | @expr n f e u v _ ha iht iha =>
    intro d s s' hn hr hs hh
    obtain ⟨s₁, hr₁, hr₂⟩ := Reads.split hr
    have hfe : f.height ≤ e.height := ha.height_left_le f rfl
    obtain ⟨r₁, hcl, hr₁'⟩ := iha s₁ s' e e.height (Rest.self s') hr₂ (hs.mono (by decide)) hh
      (climb_stop hs)
    obtain ⟨r, hx, hrx⟩ := iht 0 d s s₁ e e.height r₁ (by decide) hn hr₁ (by omega) hcl
    exact ⟨r, hx, hrx.trans hr₁'⟩
  | mulNil =>
    intro b s s' e' h' r' _ hr _ hcl
    obtain rfl := Reads.nil_iff.1 hr
    exact ⟨r', hcl, rfl⟩
  | @mulCons n left r e op t u v hop hf hm ihf ihm =>
    intro b s s' e' h' r' hb hr hh hcl
    have hmul := mulOp?_iff.1 hop
    obtain ⟨rfl, hrest⟩ := (Reads.cons_iff (Op.ne_endOfFile_of_ofKind? hmul.1)).1 hr
    obtain ⟨s₁, hr₁, hr₂⟩ := Reads.split hrest
    have hbin : (Expr.bin op left r).height ≤ e.height := hm.height_left_le _ rfl
    simp only [Expr.height_bin] at hbin
    obtain ⟨r₁, hop', rfl⟩ := ihf s.advance s₁ hr₁ (by omega)
    have hn : n < maxOpen := by have := hf.level_le rfl; omega
    obtain ⟨r₂, hx, hr₂'⟩ := expr_of_climb hn hop' (climb_stop (b := 2) (stops_two _))
    obtain ⟨r₃, hcl', hr₃⟩ := ihm b r₁.val s' e' h' r' hb hr₂ hh hcl
    rw [← hmul.2] at hx
    have hb' : b < op.precedence := by rw [hmul.2]; omega
    have hh' : max left.height r.height + 1 ≤ maxHeight := by omega
    obtain ⟨r₄, hc, hr₄⟩ := climb_cons hmul.1 hb' hx hr₂' hh' hcl'
    exact ⟨r₄, hc, hr₄.trans hr₃⟩
  | addNil =>
    intro s s' e' h' r' hr _ _ hcl
    obtain rfl := Reads.nil_iff.1 hr
    exact ⟨r', hcl, rfl⟩
  | @addCons n left r e op t u v hop ht ha iht iha =>
    intro s s' e' h' r' hr hs hh hcl
    have hadd := addOp?_iff.1 hop
    obtain ⟨rfl, hrest⟩ := (Reads.cons_iff (Op.ne_endOfFile_of_ofKind? hadd.1)).1 hr
    obtain ⟨s₁, hr₁, hr₂⟩ := Reads.split hrest
    have hbin : (Expr.bin op left r).height ≤ e.height := ha.height_left_le _ rfl
    simp only [Expr.height_bin] at hbin
    obtain ⟨r₁, hx, hr₁'⟩ := iht 1 n s.advance s₁ r r.height (Rest.self s₁) (by decide) rfl hr₁
      (by omega) (climb_stop (stops_before_addTail ha hr₂ hs))
    obtain ⟨r₃, hcl', hr₃⟩ := iha s₁ s' e' h' r' hr₂ hs hh hcl
    rw [← hadd.2] at hx
    have hb' : 0 < op.precedence := by rw [hadd.2]; omega
    have hh' : max left.height r.height + 1 ≤ maxHeight := by omega
    obtain ⟨r₄, hc, hr₄⟩ := climb_cons hadd.1 hb' hx hr₁' hh' hcl'
    exact ⟨r₄, hc, hr₄.trans hr₃⟩

/-- An expression of the grammar within the parser's bounds, followed by a token that is no
operator, is read whole by a reading with bound zero. -/
theorem expr_complete {d : Nat} {e : Expr} {u : List Token} {s s' : Stream}
    (he : Derives maxOpen .expr (d + 1) e u) (hr : Reads s u s') (hs : Stops 0 s'.current)
    (hh : e.height ≤ maxHeight) :
    ∃ r, expr d 0 s = .ok (some (e, e.height, r)) ∧ r.val = s' :=
  complete he d s s' rfl hr hs hh

end LangFront.Parse
