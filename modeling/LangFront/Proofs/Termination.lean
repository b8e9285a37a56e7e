import LangFront.Loop
import LangFront.Proofs.MaximalMunch
import LangFront.Syntax.Parse.Program
/-!
# Every reading finishes

The scanner and the parser are loops, and every turn of them that goes on reads something. This
module writes each loop as its turns (`Turn`) and shows that the readers are those loops, taken
on a budget of turns that the input bounds.

* The scanning loop skips blanks, then either ends the text with the end token or reads one
  lexeme, which takes at least one character: a text of `n` characters is scanned in at most
  `n + 1` turns (`scan_within`).
* The program loop reads a function definition after its keyword until the stream ends, the loop
  over a body reads statements until a closing brace, and the loop over parameters reads one after
  each comma. Each turn that goes on reads at least the token that lets it go on, which is never
  the end token. So a list of `n` tokens is read as a program in at most `n + 1` turns
  (`Program.ofTokens_within`), and on a stream with `n` tokens before its end token the other
  two loops take at most `n + 1` turns (`stmts_within`, `moreParams_within`).
* An expression is read by a chain of readings: an expression reads an operand and climbs from
  it, an operand reads an expression after an opening parenthesis, and climbing reads an
  expression after an operator. A reading enters the next one at the same place only in the
  order expression, operand, climbing, and any other call follows a token read; so the chain
  never nests deeper than three calls for each token before the end token, and three more
  (`exprWithin_eq`), whatever the bound on open readings.

`readings_finish` gathers the four.
-/

namespace LangFront

namespace Token

open Text

/-! ## Scanning -/

theorem scanFrom_skip_blanks (l : Location) (cs : List Char) :
    scanFrom l cs = scanFrom (l.advance (cs.takeWhile isBlank)) (cs.dropWhile isBlank) := by
  induction cs generalizing l with
  | nil => rfl
  | cons c cs ih =>
    cases hc : isBlank c
    · simp [hc]
    · rw [scanFrom_blank hc, ih, List.takeWhile_cons_of_pos hc, List.dropWhile_cons_of_pos hc,
        Location.advance_cons]

theorem Lexeme.rest_length_lt_of_dropWhile {l : Location} {c : Char} {cs cs' : List Char}
    {x : Lexeme} (hd : cs.dropWhile isBlank = c :: cs') (hx : readLexeme l c cs' = .ok x) :
    x.rest.length < cs.length := by
  have h1 := Lexeme.rest_length_lt hx
  have h2 := List.length_dropWhile_le isBlank cs
  rw [hd, List.length_cons] at h2
  omega

/-- One turn of the scanning loop on the text `cs` at `l`: past the blanks, the end of the text
finishes the loop with the end token; else one lexeme is read and the loop goes on after it. -/
def scanTurn : (x : Location × List Char) → Turn (fun x => x.2.length) ScanError (List Token) x
  | (l, cs) =>
    match hd : cs.dropWhile isBlank with
    | [] => .ok (.inl [Token.endOfFile (l.advance (cs.takeWhile isBlank))])
    | c :: cs' =>
      match hx : readLexeme (l.advance (cs.takeWhile isBlank)) c cs' with
      | .error e => .error e
      | .ok x =>
        .ok (.inr ((x.token :: ·), ⟨((l.advance (cs.takeWhile isBlank)).advance x.text, x.rest),
          Lexeme.rest_length_lt_of_dropWhile hd hx⟩))

section
variable {l : Location} {c : Char} {cs cs' : List Char}

theorem scanTurn_of_end (hd : cs.dropWhile isBlank = []) :
    scanTurn (l, cs) = .ok (.inl [Token.endOfFile (l.advance (cs.takeWhile isBlank))]) := by
  rw [scanTurn]
  split
  · rfl
  · rename_i hd'
    rw [hd] at hd'
    cases hd'

theorem scanTurn_of_error {e : ScanError} (hd : cs.dropWhile isBlank = c :: cs')
    (hx : readLexeme (l.advance (cs.takeWhile isBlank)) c cs' = .error e) :
    scanTurn (l, cs) = .error e := by
  rw [scanTurn]
  split
  · rename_i hd'
    rw [hd] at hd'
    cases hd'
  · rename_i c₁ cs₁ hd'
    rw [hd, List.cons.injEq] at hd'
    obtain ⟨rfl, rfl⟩ := hd'
    split
    · rename_i e' hx'
      rw [hx] at hx'
      cases hx'
      rfl
    · rename_i x hx'
      rw [hx] at hx'
      cases hx'

theorem scanTurn_of_lexeme {x : Lexeme} (hd : cs.dropWhile isBlank = c :: cs')
    (hx : readLexeme (l.advance (cs.takeWhile isBlank)) c cs' = .ok x) :
    scanTurn (l, cs) = .ok (.inr ((x.token :: ·),
      ⟨((l.advance (cs.takeWhile isBlank)).advance x.text, x.rest),
        Lexeme.rest_length_lt_of_dropWhile hd hx⟩)) := by
  rw [scanTurn]
  split
  · rename_i hd'
    rw [hd] at hd'
    cases hd'
  · rename_i c₁ cs₁ hd'
    rw [hd, List.cons.injEq] at hd'
    obtain ⟨rfl, rfl⟩ := hd'
    split
    · rename_i e hx'
      rw [hx] at hx'
      cases hx'
    · rename_i x' hx'
      rw [hx] at hx'
      cases hx'
      rfl

end

theorem scanFrom_turn (x : Location × List Char) :
    scanFrom x.1 x.2 = Loop.after (fun y => scanFrom y.1 y.2) (scanTurn x) := by
  obtain ⟨l, cs⟩ := x
  rw [scanFrom_skip_blanks]
  rcases hd : cs.dropWhile isBlank with _ | ⟨c, cs'⟩
  · rw [scanTurn_of_end hd, scanFrom_nil]
    rfl
  · have hc : isBlank c = false := forall_mem_head?_dropWhile cs c (by rw [hd]; rfl)
    cases hx : readLexeme (l.advance (cs.takeWhile isBlank)) c cs' with
    | error e =>
      rw [scanTurn_of_error hd hx, scanFrom_stuck hc hx]
      rfl
    | ok x => rw [scanTurn_of_lexeme hd hx, scanFrom_lexeme hc hx, Loop.after_next]

/-- A text of `n` characters is scanned in at most `n + 1` turns of the scanning loop. -/
theorem scan_within (s : String) :
    Loop.within scanTurn (s.length + 1) (Location.start, s.toList) = some (scan s) := by
  rw [← String.length_toList]
  exact Loop.within_eq (f := fun x => scanFrom x.1 x.2) scanTurn scanFrom_turn _

-- the budget is spent: a one-letter text takes a turn for the name and one for the end token
example : Loop.within scanTurn 1 (Location.start, ['a']) = none := by decide

end Token

namespace Parse

open Token

/-! ## The loops of the parser -/

/-- One turn of the program loop: at the end of the stream the loop finishes; else a function
definition is read after its keyword, and the loop goes on after it. -/
def functionTurn (s : Stream) : Turn Stream.size ParseError (List FunctionDef) s :=
  if s.hasEnded then .ok (.inl [])
  else
    match hf : s.accept? .kwFunction with
    | none => .error (stuck .functionDefinition s)
    | some (_, s1) =>
      match functionRest s1 with
      | .error e => .error e
      | .ok (f, ⟨s2, h2⟩) =>
        .ok (.inr ((f :: ·),
          ⟨s2, h2.trans_lt (Stream.size_lt_of_accept? hf (by decide))⟩))

section
variable {s s₁ : Stream} {t : Token}

theorem functionTurn_of_hasEnded (h : s.hasEnded = true) : functionTurn s = .ok (.inl []) := by
  rw [functionTurn, if_pos h]

theorem functionTurn_of_none (h : s.hasEnded = false) (hf : s.accept? .kwFunction = none) :
    functionTurn s = .error (stuck .functionDefinition s) := by
  rw [functionTurn, if_neg (by simp [h])]
  split
  · rfl
  · rename_i hf'
    rw [hf] at hf'
    cases hf'

theorem functionTurn_of_error {e : ParseError} (h : s.hasEnded = false)
    (hf : s.accept? .kwFunction = some (t, s₁)) (hr : functionRest s₁ = .error e) :
    functionTurn s = .error e := by
  rw [functionTurn, if_neg (by simp [h])]
  split
  · rename_i hf'
    rw [hf] at hf'
    cases hf'
  · rename_i hf'
    rw [hf, Option.some.injEq, Prod.mk.injEq] at hf'
    obtain ⟨rfl, rfl⟩ := hf'
    rw [hr]

theorem functionTurn_of_next {f : FunctionDef} {s₂ : Rest s₁} (h : s.hasEnded = false)
    (hf : s.accept? .kwFunction = some (t, s₁)) (hr : functionRest s₁ = .ok (f, s₂)) :
    ∃ y : { y : Stream // y.size < s.size }, y.val = s₂.val ∧
      functionTurn s = .ok (.inr ((f :: ·), y)) := by
  rw [functionTurn, if_neg (by simp [h])]
  split
  · rename_i hf'
    rw [hf] at hf'
    cases hf'
  · rename_i hf'
    rw [hf, Option.some.injEq, Prod.mk.injEq] at hf'
    obtain ⟨rfl, rfl⟩ := hf'
    rw [hr]
    exact ⟨_, rfl, rfl⟩

end

theorem functions_turn (s : Stream) : functions s = Loop.after functions (functionTurn s) := by
  rw [functions]
  split
  · rename_i h
    rw [functionTurn_of_hasEnded h]
    rfl
  · rename_i h
    have h' : s.hasEnded = false := by simpa using h
    split
    · rename_i hf
      rw [functionTurn_of_none h' hf]
      rfl
    · rename_i t s₁ hf
      split
      · rename_i e hr
        rw [functionTurn_of_error h' hf hr]
        rfl
      · rename_i f s₂ h₂ hr
        obtain ⟨y, rfl, ht⟩ := functionTurn_of_next h' hf hr
        rw [ht, Loop.after_next]
        cases functions y.val <;> rfl

theorem functions_eq_run (s : Stream) : functions s = Loop.run functionTurn s :=
  Loop.eq_run functionTurn functions_turn s

/-- One turn of the loop over a body's statements: a closing brace finishes the loop, the end of
the stream is an error, and else a statement is read and the loop goes on after it. -/
def stmtTurn (s : Stream) : Turn Stream.size ParseError (List Stmt × Stream) s :=
  match s.accept? .closeBrace with
  | some (_, s1) => .ok (.inl ([], s1))
  | none =>
    if s.hasEnded then .error (stuck .closeBrace s)
    else
      match stmt s with
      | .error e => .error e
      | .ok (st, s1) => .ok (.inr ((fun r => (st :: r.1, r.2)), s1))

theorem stmts_turn (s : Stream) :
    (stmts s).map (fun r => (r.1, r.2.val)) =
      Loop.after (fun s => (stmts s).map (fun r => (r.1, r.2.val))) (stmtTurn s) := by
  rw [stmts]
  split
  · rename_i t s₁ hc
    simp only [stmtTurn, hc]
    rfl
  · rename_i hc
    split
    · rename_i h
      simp only [stmtTurn, hc, if_pos h]
      rfl
    · rename_i h
      split
      · rename_i e hst
        simp only [stmtTurn, hc, if_neg h, hst]
        rfl
      · rename_i st s₁ h₁ hst
        simp only [stmtTurn, hc, if_neg h, hst, Loop.after_next]
        cases stmts s₁ <;> rfl

theorem stmts_within (s : Stream) :
    Loop.within stmtTurn (s.size + 1) s = some ((stmts s).map fun r => (r.1, r.2.val)) :=
  Loop.within_eq (f := fun s => (stmts s).map fun r => (r.1, r.2.val)) stmtTurn stmts_turn s

/-- One turn of the loop over the parameters after the first: without a comma the loop finishes;
after one a parameter must follow, and the loop goes on after it. -/
def paramTurn (s : Stream) : Turn Stream.size ParseError (List Param × Stream) s :=
  match hc : s.accept? .comma with
  | none => .ok (.inl ([], s))
  | some (_, s1) =>
    match param? s1 with
    | .error e => .error e
    | .ok none => .error (stuck .parameter s1)
    | .ok (some (p, ⟨s2, h2⟩)) =>
      .ok (.inr ((fun r => (p :: r.1, r.2)),
        ⟨s2, h2.trans_lt (Stream.size_lt_of_accept? hc (by decide))⟩))

section
variable {s s₁ : Stream} {t : Token}

theorem paramTurn_of_none (hc : s.accept? .comma = none) : paramTurn s = .ok (.inl ([], s)) := by
  rw [paramTurn]
  split
  · rfl
  · rename_i hc'
    rw [hc] at hc'
    cases hc'

theorem paramTurn_of_some (hc : s.accept? .comma = some (t, s₁)) :
    ∃ h : s₁.size < s.size, paramTurn s = match param? s₁ with
      | .error e => .error e
      | .ok none => .error (stuck .parameter s₁)
      | .ok (some (p, ⟨s2, h2⟩)) =>
        .ok (.inr ((fun r => (p :: r.1, r.2)), ⟨s2, h2.trans_lt h⟩)) := by
  refine ⟨Stream.size_lt_of_accept? hc (by decide), ?_⟩
  rw [paramTurn]
  split
  · rename_i hc'
    rw [hc] at hc'
    cases hc'
  · rename_i hc'
    rw [hc, Option.some.injEq, Prod.mk.injEq] at hc'
    obtain ⟨rfl, rfl⟩ := hc'
    rfl

end

theorem moreParams_turn (s : Stream) :
    (moreParams s).map (fun r => (r.1, r.2.val)) =
      Loop.after (fun s => (moreParams s).map (fun r => (r.1, r.2.val))) (paramTurn s) := by
  rw [moreParams]
  split
  · rename_i hc
    rw [paramTurn_of_none hc]
    rfl
  · rename_i t s₁ hc
    obtain ⟨h₁, ht⟩ := paramTurn_of_some hc
    rw [ht]
    rcases param? s₁ with e | _ | ⟨p, s₂, h₂⟩
    · rfl
    · rfl
    · dsimp only
      rw [Loop.after_next]
      cases moreParams s₂ <;> rfl

theorem moreParams_within (s : Stream) :
    Loop.within paramTurn (s.size + 1) s = some ((moreParams s).map fun r => (r.1, r.2.val)) :=
  Loop.within_eq (f := fun s => (moreParams s).map fun r => (r.1, r.2.val)) paramTurn
    moreParams_turn s

/-! ## The chain of expression readings -/

/-- A reading's result with the rest of the stream as a plain stream. -/
def plainRest {s : Stream} (x : Except ParseError (Option (ExprRead s))) :
    Except ParseError (Option (Expr × Nat × Stream)) :=
  x.map (Option.map fun r => (r.1, r.2.1, r.2.2.val))

/-- A climbing loop's result with the rest of the stream as a plain stream. -/
def plainRestTail {s : Stream} (x : Except ParseError (ExprRead s)) :
    Except ParseError (Expr × Nat × Stream) :=
  x.map fun r => (r.1, r.2.1, r.2.2.val)

@[simp] theorem plainRest_some {s : Stream} {x : Expr} {h : Nat} {r : Rest s} :
    plainRest (.ok (some (x, h, r))) = .ok (some (x, h, r.val)) :=
  rfl

mutual

/-- `expr` on a budget of `fuel` nested calls of the reading chain: nothing when it runs out. -/
def exprWithin : Nat → (depth bound : Nat) → Stream →
    Option (Except ParseError (Option (Expr × Nat × Stream)))
  | 0, _, _, _ => none
  | fuel + 1, depth, bound, s =>
    if depth ≥ maxOpen then some (.error (stuck .tooDeep s))
    else
      match operandWithin fuel (depth + 1) s with
      | none => none
      | some (.error e) => some (.error e)
      | some (.ok none) => some (.ok none)
      | some (.ok (some (e, h, s1))) =>
        (climbWithin fuel (depth + 1) bound e h s1).map (Except.map some)
termination_by structural fuel => fuel

/-- `operand` on a budget of `fuel` nested calls of the reading chain. -/
def operandWithin : Nat → (depth : Nat) → Stream →
    Option (Except ParseError (Option (Expr × Nat × Stream)))
  | 0, _, _ => none
  | fuel + 1, depth, s =>
    match s.accept? .openParen with
    | some (_, s1) =>
      match exprWithin fuel depth 0 s1 with
      | none => none
      | some (.error e) => some (.error e)
      | some (.ok none) => some (.error (stuck .expression s1))
      | some (.ok (some (e, h, s2))) =>
        match s2.accept? .closeParen with
        | some (_, s3) => some (.ok (some (e, h, s3)))
        | none => some (.error (stuck .closeParen s2))
    | none =>
      if s.peekIs .number then
        match s.current.number? with
        | some n => some (.ok (some (.lit n, 0, s.advance)))
        | none => some (.error (stuck .valueMissing s))
      else
        match name? s with
        | .error e => some (.error e)
        | .ok none => some (.ok none)
        | .ok (some (x, s1)) => some (.ok (some (.var x, 0, s1.val)))
termination_by structural fuel => fuel

/-- `climb` on a budget of `fuel` nested calls of the reading chain. -/
def climbWithin : Nat → (depth bound : Nat) → Expr → Nat → Stream →
    Option (Except ParseError (Expr × Nat × Stream))
  | 0, _, _, _, _, _ => none
  | fuel + 1, depth, bound, left, h, s =>
    match Op.ofKind? s.current.kind with
    | none => some (.ok (left, h, s))
    | some op =>
      if op.precedence ≤ bound then some (.ok (left, h, s))
      else
        match exprWithin fuel depth op.precedence s.advance with
        | none => none
        | some (.error e) => some (.error e)
        | some (.ok none) => some (.error (stuck .rightOperand s.advance))
        | some (.ok (some (r, rh, s2))) =>
          if maxHeight < max h rh + 1 then some (.error (stuck .tooDeep s2))
          else climbWithin fuel depth bound (.bin op left r) (max h rh + 1) s2
termination_by structural fuel => fuel

end

/-! Each reading needs one call more than the readings it makes. An expression reading is worth
three calls for each token before the end token, and two more; an operand, one fewer; a climbing
step, one fewer again. An operand and a climbing step call an expression reading only after a
token read, and a climbing step calls itself only after an operator read. -/

mutual

theorem exprWithin_eq : ∀ (fuel d b : Nat) (s : Stream), 3 * s.size + 2 < fuel →
    exprWithin fuel d b s = some (plainRest (expr d b s))
  | 0, _, _, _, h => absurd h (Nat.not_lt_zero _)
  | fuel + 1, d, b, s, hf => by
    rw [exprWithin, expr]
    by_cases hd : d ≥ maxOpen
    · rw [if_pos hd, if_pos hd]
      rfl
    · rw [if_neg hd, if_neg hd, operandWithin_eq fuel (d + 1) s (by omega)]
      rcases operand (d + 1) s with e | _ | ⟨f, hgt, s1, h1⟩
      · rfl
      · rfl
      · dsimp only [plainRest, Except.map, Option.map]
        rw [climbWithin_eq fuel (d + 1) b f hgt s1 (by omega)]
        cases climb (d + 1) b f hgt s1 <;> rfl

theorem operandWithin_eq : ∀ (fuel d : Nat) (s : Stream), 3 * s.size + 1 < fuel →
    operandWithin fuel d s = some (plainRest (operand d s))
  | 0, _, _, h => absurd h (Nat.not_lt_zero _)
  | fuel + 1, d, s, hf => by
    rw [operand]
    split
    · rename_i t s1 hp
      have h1 : s1.size < s.size := Stream.size_lt_of_accept? hp (by decide)
      rw [operandWithin]
      simp only [hp]
      rw [exprWithin_eq fuel d 0 s1 (by omega)]
      rcases expr d 0 s1 with e | _ | ⟨e, hgt, s2, h2⟩
      · rfl
      · rfl
      · simp only [plainRest_some]
        symm
        split
        · rename_i t3 s3 hc
          simp only [hc]
          rfl
        · rename_i hc
          simp only [hc]
          rfl
    · rename_i hp
      rw [operandWithin]
      simp only [hp]
      by_cases hn : s.peekIs .number
      · rw [if_pos hn, if_pos hn]
        cases s.current.number? <;> rfl
      · rw [if_neg hn, if_neg hn]
        rcases name? s with e | _ | ⟨x, s1⟩ <;> rfl

theorem climbWithin_eq :
    ∀ (fuel d b : Nat) (left : Expr) (h : Nat) (s : Stream), 3 * s.size < fuel →
      climbWithin fuel d b left h s = some (plainRestTail (climb d b left h s))
  | 0, _, _, _, _, _, hf => absurd hf (Nat.not_lt_zero _)
  | fuel + 1, d, b, left, h, s, hf => by
    rw [climb]
    split
    · rename_i hk
      rw [climbWithin]
      simp only [hk]
      rfl
    · rename_i op hk
      have h1 : s.advance.size < s.size := Stream.size_advance_lt (Op.ne_endOfFile_of_ofKind? hk)
      rw [climbWithin]
      simp only [hk]
      by_cases hb : op.precedence ≤ b
      · rw [if_pos hb, if_pos hb]
        rfl
      · rw [if_neg hb, if_neg hb, exprWithin_eq fuel d op.precedence s.advance (by omega)]
        rcases expr d op.precedence s.advance with e | _ | ⟨r, rh, s2, h2⟩
        · rfl
        · rfl
        · dsimp only [plainRest, Except.map, Option.map]
          by_cases hh : maxHeight < max h rh + 1
          · rw [if_pos hh, if_pos hh]
            rfl
          · rw [if_neg hh, if_neg hh, climbWithin_eq fuel d b _ _ s2 (by omega)]
            cases climb d b (.bin op left r) (max h rh + 1) s2 <;> rfl

end

end Parse

/-! ## Every reading finishes -/

/-- A list of `n` tokens is read as a program in at most `n + 1` turns of the program loop. -/
theorem Program.ofTokens_within (ts : List Token) :
    (Loop.within Parse.functionTurn (ts.length + 1) (Token.Stream.ofList ts)).map
      (Except.map Program.mk) = some (Program.ofTokens ts) := by
  have hsize : (Token.Stream.ofList ts).size < ts.length + 1 :=
    Nat.lt_succ_of_le (List.takeWhile_prefix _).length_le
  rw [Loop.within_eq_run Parse.functionTurn _ _ hsize, ← Parse.functions_eq_run]
  rfl

/-- Every reading finishes within a budget that its input bounds: the scanning loop within one
turn more than the characters of the text, the program loop within one turn more than the tokens
given, the loops over a body and over parameters within one turn more than the tokens before the
end token, and the chain of expression readings within three nested calls for each such token,
and three more. -/
theorem readings_finish :
    (∀ text : String, Loop.within Token.scanTurn (text.length + 1) (Location.start, text.toList) =
      some (Token.scan text)) ∧
    (∀ ts : List Token,
      (Loop.within Parse.functionTurn (ts.length + 1) (Token.Stream.ofList ts)).map
        (Except.map Program.mk) = some (Program.ofTokens ts)) ∧
    (∀ s : Token.Stream, Loop.within Parse.stmtTurn (s.size + 1) s =
      some ((Parse.stmts s).map fun r => (r.1, r.2.val))) ∧
    (∀ s : Token.Stream, Loop.within Parse.paramTurn (s.size + 1) s =
      some ((Parse.moreParams s).map fun r => (r.1, r.2.val))) ∧
    (∀ (d b : Nat) (s : Token.Stream), Parse.exprWithin (3 * s.size + 3) d b s =
      some (Parse.plainRest (Parse.expr d b s))) :=
  ⟨Token.scan_within, Program.ofTokens_within, Parse.stmts_within, Parse.moreParams_within,
    fun d b s => Parse.exprWithin_eq _ d b s (Nat.lt_succ_self _)⟩

end LangFront
