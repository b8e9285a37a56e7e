import LangFront.Proofs.Stream
import LangFront.Syntax.Parse.Program
/-!
# A cursor that holds a list and a position

A stream of tokens can be held the way a cursor over a vector holds it: the list closed by an
end token when its own last token is not one (`cursorTokens`), and the position of the current
token (`IndexCursor`). Taking a token moves the position on by one unless the cursor has ended,
and it has ended when its position is past the list or at an end token.

Such a cursor stays between the start of its list and the first end token `e` of the list, which
lies inside the list (`IndexCursor.Valid`), so its current token is always a token of the list
and not a default one. Its laws in terms of the position (`IndexCursor.Laws`) hold after every
sequence of queries.

The stream made from the list is that cursor seen from the front: at position `p` it is the
stream of the tokens from `p` up to `e`, then the end token at `e` (`Stream.atIndex`). Both answer
every sequence of queries alike (`IndexCursor.askAll_atIndex`). As a stream never shows what
follows its end token, what follows the first end token of a list changes no program read from
it, and a list that starts with an end token is the empty program.
-/

namespace LangFront.Token

open LangFront.Token.Stream

/-! ## The position of the first end token -/

namespace Stream

/-- The position of the first end token in the list a cursor over `ts` holds. -/
def endIndex (ts : List Token) : Nat := (cursorTokens ts).findIdx Token.isEnd

theorem exists_isEnd_cursorTokens (ts : List Token) : ∃ t ∈ cursorTokens ts, t.isEnd = true :=
  ⟨sentinelOf ts, List.mem_of_find?_eq_some (find?_cursorTokens ts), sentinelOf_isEnd ts⟩

theorem endIndex_lt_length (ts : List Token) : endIndex ts < (cursorTokens ts).length :=
  List.findIdx_lt_length_of_exists (exists_isEnd_cursorTokens ts)

theorem getElem?_endIndex (ts : List Token) :
    (cursorTokens ts)[endIndex ts]? = some (sentinelOf ts) := by
  rw [endIndex, ← List.find?_eq_getElem?_findIdx, find?_cursorTokens]

theorem get_endIndex (ts : List Token) :
    (cursorTokens ts).get ⟨endIndex ts, endIndex_lt_length ts⟩ = sentinelOf ts := by
  have h := getElem?_endIndex ts
  rw [List.getElem?_eq_getElem (endIndex_lt_length ts), Option.some.injEq] at h
  exact h

theorem isEnd_get_of_lt {ts : List Token} {p : Nat} (h : p < endIndex ts) :
    ((cursorTokens ts).get ⟨p, Nat.lt_trans h (endIndex_lt_length ts)⟩).isEnd = false :=
  List.not_of_lt_findIdx h

theorem ahead_ofList (ts : List Token) :
    (ofList ts).ahead = (cursorTokens ts).take (endIndex ts) := by
  show ts.takeWhile (fun t => !t.isEnd) = _
  rw [← takeWhile_cursorTokens, List.takeWhile_eq_take_findIdx_not]
  simp only [Bool.not_not]
  rfl

@[simp] theorem length_ahead_ofList (ts : List Token) : (ofList ts).ahead.length = endIndex ts := by
  rw [ahead_ofList, List.length_take]
  have := endIndex_lt_length ts
  omega

/-! ## The stream at a position -/

/-- The stream that a cursor over `ts` at position `p` stands for: the tokens from `p` on that
come before the first end token, then that end token. -/
def atIndex (ts : List Token) (p : Nat) : Stream where
  ahead := (ofList ts).ahead.drop p
  sentinel := sentinelOf ts
  ahead_not_end t h := (ofList ts).ahead_not_end t (List.mem_of_mem_drop h)
  sentinel_end := sentinelOf_isEnd ts

theorem atIndex_zero (ts : List Token) : atIndex ts 0 = ofList ts :=
  ext_ahead List.drop_zero rfl

theorem advance_atIndex (ts : List Token) (p : Nat) : (atIndex ts p).advance = atIndex ts (p + 1) :=
  ext_ahead List.tail_drop rfl

theorem hasEnded_atIndex (ts : List Token) (p : Nat) :
    (atIndex ts p).hasEnded = decide (endIndex ts ≤ p) := by
  rw [Bool.eq_iff_iff, decide_eq_true_iff]
  simp only [hasEnded, atIndex, List.isEmpty_iff, List.drop_eq_nil_iff, length_ahead_ofList]

theorem current_atIndex {ts : List Token} {p : Nat} (h : p ≤ endIndex ts) :
    (atIndex ts p).current =
      (cursorTokens ts).get ⟨p, Nat.lt_of_le_of_lt h (endIndex_lt_length ts)⟩ := by
  rcases Nat.lt_or_eq_of_le h with hlt | rfl
  · have hp : p < (ofList ts).ahead.length := by simpa using hlt
    simp only [current, atIndex, List.drop_eq_getElem_cons hp]
    simp only [ahead_ofList, List.getElem_take, List.get_eq_getElem]
  · have hnil : (ofList ts).ahead.drop (endIndex ts) = [] := by simp
    simp only [current, atIndex, hnil, get_endIndex]

end Stream

/-! ## Cursors over a list -/

/-- A list of tokens and the position of the current one. -/
structure IndexCursor where
  tokens : List Token
  position : Nat

namespace IndexCursor

/-- The cursor at the start of the list a cursor over `ts` holds. -/
def new (ts : List Token) : IndexCursor := ⟨cursorTokens ts, 0⟩

/-- The token at the position; the default token only past the end of the list. -/
def current (c : IndexCursor) : Token := c.tokens.getD c.position default

/-- Has the cursor run past its list or reached an end token? -/
def hasEnded (c : IndexCursor) : Bool := c.tokens.length ≤ c.position || c.current.isEnd

/-- Does the current token have kind `k`? -/
def peekIs (c : IndexCursor) (k : Kind) : Bool := c.current.kind = k

/-- Move to the next position, unless the cursor has ended. -/
def advance (c : IndexCursor) : IndexCursor :=
  if c.hasEnded then c else { c with position := c.position + 1 }

/-- Take the current token if it has kind `k`, with the cursor after it. -/
def checkToken (c : IndexCursor) (k : Kind) : Option Token × IndexCursor :=
  if c.peekIs k then (some c.current, c.advance) else (none, c)

/-- Answer one query, with the cursor after it. -/
def ask (c : IndexCursor) : Query → Reply × IndexCursor
  | .check k => (.flag (c.checkToken k).1.isSome, (c.checkToken k).2)
  | .take k => (.taken (c.checkToken k).1, (c.checkToken k).2)
  | .peekIs k => (.flag (c.peekIs k), c)
  | .current => (.token c.current, c)
  | .hasEnded => (.flag c.hasEnded, c)

/-- Answer queries one after another, each on the cursor the previous one left. -/
def askAll (c : IndexCursor) : List Query → List Reply
  | [] => []
  | q :: qs => (c.ask q).1 :: askAll (c.ask q).2 qs

/-- The cursor after a sequence of queries. -/
def afterAll (c : IndexCursor) (qs : List Query) : IndexCursor :=
  qs.foldl (fun c q => (c.ask q).2) c

/-- A cursor over `ts` holds the closed list and stands no later than its first end token. -/
structure Valid (ts : List Token) (c : IndexCursor) : Prop where
  tokens_eq : c.tokens = cursorTokens ts
  position_le : c.position ≤ endIndex ts

theorem valid_new (ts : List Token) : Valid ts (new ts) := ⟨rfl, Nat.zero_le _⟩

namespace Valid

variable {ts : List Token} {c : IndexCursor}

theorem position_lt_length (h : Valid ts c) : c.position < c.tokens.length := by
  rw [h.tokens_eq]
  exact Nat.lt_of_le_of_lt h.position_le (endIndex_lt_length ts)

theorem current_eq (h : Valid ts c) :
    c.current = (cursorTokens ts).get ⟨c.position, h.tokens_eq ▸ h.position_lt_length⟩ := by
  simp only [current, h.tokens_eq, List.getD_eq_getElem?_getD,
    List.getElem?_eq_getElem (h.tokens_eq ▸ h.position_lt_length), Option.getD_some,
    List.get_eq_getElem]

theorem getElem?_position (h : Valid ts c) : c.tokens[c.position]? = some c.current := by
  rw [List.getElem?_eq_getElem h.position_lt_length, h.current_eq]
  simp only [h.tokens_eq, List.get_eq_getElem]

theorem hasEnded_iff (h : Valid ts c) : c.hasEnded = true ↔ c.position = endIndex ts := by
  have hlen : ¬ c.tokens.length ≤ c.position := Nat.not_le.2 h.position_lt_length
  simp only [hasEnded, hlen, decide_false, Bool.false_or, h.current_eq]
  rcases Nat.lt_or_eq_of_le h.position_le with hlt | heq
  · simp only [isEnd_get_of_lt hlt, Bool.false_eq_true, false_iff]
    omega
  · simp only [heq, get_endIndex, sentinelOf_isEnd]

theorem advance_eq (h : Valid ts c) :
    c.advance =
      { c with position := if c.position < endIndex ts then c.position + 1 else c.position } := by
  by_cases hlt : c.position < endIndex ts
  · have hnot : c.hasEnded = false := by
      cases he : c.hasEnded
      · rfl
      · exact absurd (h.hasEnded_iff.1 he) (Nat.ne_of_lt hlt)
    simp [advance, hnot, hlt]
  · have hend : c.hasEnded = true := h.hasEnded_iff.2 (by have := h.position_le; omega)
    simp [advance, hend, hlt]

theorem advance_position (h : Valid ts c) :
    c.advance.position = if c.position < endIndex ts then c.position + 1 else c.position := by
  rw [h.advance_eq]

theorem advance (h : Valid ts c) : Valid ts c.advance := by
  refine ⟨?_, ?_⟩
  · unfold IndexCursor.advance
    split
    · exact h.tokens_eq
    · exact h.tokens_eq
  · have := h.position_le
    rw [h.advance_position]
    split <;> omega

theorem ask (h : Valid ts c) (q : Query) : Valid ts (c.ask q).2 := by
  cases q with
  | check k | take k =>
    simp only [IndexCursor.ask, checkToken]
    split
    · exact h.advance
    · exact h
  | peekIs k | current | hasEnded => exact h

theorem afterAll (h : Valid ts c) (qs : List Query) : Valid ts (c.afterAll qs) := by
  induction qs generalizing c with
  | nil => exact h
  | cons q qs ih => exact ih (h.ask q)

/-! ### The stream a valid cursor stands for -/

theorem current_atIndex (h : Valid ts c) : (atIndex ts c.position).current = c.current := by
  rw [Stream.current_atIndex h.position_le, h.current_eq]

theorem hasEnded_atIndex (h : Valid ts c) : (atIndex ts c.position).hasEnded = c.hasEnded := by
  rw [Stream.hasEnded_atIndex, Bool.eq_iff_iff, h.hasEnded_iff, decide_eq_true_iff]
  have := h.position_le
  omega

theorem advance_atIndex (h : Valid ts c) :
    (atIndex ts c.position).advance = atIndex ts c.advance.position := by
  rw [h.advance_position]
  split
  · exact Stream.advance_atIndex ts c.position
  · rename_i hlt
    have := h.position_le
    apply advance_of_hasEnded
    rw [Stream.hasEnded_atIndex, decide_eq_true_iff]
    omega

theorem ask_atIndex (h : Valid ts c) (q : Query) :
    (atIndex ts c.position).ask q = ((c.ask q).1, atIndex ts (c.ask q).2.position) := by
  have hpeek : ∀ k, (atIndex ts c.position).peekIs k = c.peekIs k := fun k => by
    simp only [Stream.peekIs, IndexCursor.peekIs, h.current_atIndex]
  cases q with
  | check k | take k =>
    simp only [Stream.ask, IndexCursor.ask, accept?, checkToken, hpeek, h.current_atIndex]
    cases c.peekIs k
    · rfl
    · simp only [if_true, h.advance_atIndex, Option.isSome_some]
  | peekIs k => simp only [Stream.ask, IndexCursor.ask, hpeek]
  | current => simp only [Stream.ask, IndexCursor.ask, h.current_atIndex]
  | hasEnded => simp only [Stream.ask, IndexCursor.ask, h.hasEnded_atIndex]

/-- A whole sequence of queries, by induction on it: each query keeps the cursor valid and the
stream standing for it. -/
theorem askAll_atIndex (h : Valid ts c) (qs : List Query) :
    (atIndex ts c.position).askAll qs = c.askAll qs := by
  induction qs generalizing c with
  | nil => rfl
  | cons q qs ih => simp only [Stream.askAll, IndexCursor.askAll, h.ask_atIndex, ih (h.ask q)]

end Valid

/-! ## The laws of a cursor -/

/-- The laws of a cursor over `ts`, in terms of its position `p` and the position `e` of the
first end token: the cursor holds the closed list, `p ≤ e` and `e` lies inside the list; the
current token is the one at `p`; the cursor has ended exactly when `p = e`; a token of the asked
kind is taken, moving the cursor one place on when `p < e` and leaving it at `e`, and any other
kind leaves the cursor as it is; and asking whether a kind is current, for the current token or
whether the cursor has ended moves nothing. -/
structure Laws (ts : List Token) (c : IndexCursor) : Prop extends Valid ts c where
  endIndex_lt : endIndex ts < c.tokens.length
  current_eq : c.tokens[c.position]? = some c.current
  hasEnded_iff : c.hasEnded = true ↔ c.position = endIndex ts
  checkToken_eq : ∀ k, c.checkToken k =
    if c.current.kind = k then
      (some c.current,
        { c with position := if c.position < endIndex ts then c.position + 1 else c.position })
    else (none, c)
  queries_stay : ∀ k, (c.ask (.peekIs k)).2 = c ∧ (c.ask .current).2 = c ∧ (c.ask .hasEnded).2 = c

variable {ts : List Token} {c : IndexCursor}

theorem Valid.checkToken_eq (h : Valid ts c) (k : Kind) :
    c.checkToken k =
      if c.current.kind = k then
        (some c.current,
          { c with position := if c.position < endIndex ts then c.position + 1 else c.position })
      else (none, c) := by
  by_cases hk : c.current.kind = k
  · simp [checkToken, peekIs, hk, h.advance_eq]
  · simp [checkToken, peekIs, hk]

/-- A valid cursor keeps every law. -/
theorem Valid.laws (h : Valid ts c) : Laws ts c where
  toValid := h
  endIndex_lt := h.tokens_eq ▸ endIndex_lt_length ts
  current_eq := h.getElem?_position
  hasEnded_iff := h.hasEnded_iff
  checkToken_eq := h.checkToken_eq
  queries_stay _ := ⟨rfl, rfl, rfl⟩

end IndexCursor

namespace Stream

theorem ofList_append_end {ts us : List Token} {t : Token} (ht : t.isEnd = true) :
    ofList (ts ++ t :: us) = ofList (ts ++ [t]) := by
  apply ext_ahead
  · show (ts ++ t :: us).takeWhile (fun t => !t.isEnd) = (ts ++ [t]).takeWhile (fun t => !t.isEnd)
    induction ts with
    | nil => simp [ht]
    | cons a ts ih => cases ha : a.isEnd <;> simp [ha, ih]
  · show sentinelOf (ts ++ t :: us) = sentinelOf (ts ++ [t])
    unfold sentinelOf
    cases hf : ts.find? Token.isEnd <;> simp [List.find?_append, hf, ht]

end Stream

end LangFront.Token

namespace LangFront

open Token Stream

theorem Program.ofTokens_append_end {ts us : List Token} {t : Token} (ht : t.isEnd = true) :
    Program.ofTokens (ts ++ t :: us) = Program.ofTokens (ts ++ [t]) := by
  simp only [Program.ofTokens, ofList_append_end ht]

theorem Program.ofTokens_end_cons {t : Token} (ht : t.isEnd = true) (us : List Token) :
    Program.ofTokens (t :: us) = .ok ⟨[]⟩ := by
  have hend : (ofList (t :: us)).hasEnded = true := by simp [hasEnded, ofList, ht]
  unfold Program.ofTokens Program.ofStream
  rw [Parse.functions, if_pos hend]
  rfl

/-- A stream made from a list is a cursor over the list that sticks at its first end token.
After any sequence of queries the cursor keeps its laws: it stands at or before the first end
token, which lies inside its list, its current token is the one at its position, it has ended
exactly at that end token, and taking a token moves it one place on only before it. The stream
answers every sequence of queries as the cursor does. So a program read from a list never sees
past its first end token, and a list that starts with one is the empty program. -/
theorem Token.Stream.ofList_sticky_end (ts : List Token) :
    (∀ qs, IndexCursor.Laws ts ((IndexCursor.new ts).afterAll qs)) ∧
    (∀ qs, (ofList ts).askAll qs = (IndexCursor.new ts).askAll qs) ∧
    (∀ (us : List Token) (pl : Option Payload) (l : Location),
      Program.ofTokens (ts ++ [⟨.endOfFile, pl, l⟩] ++ us) =
        Program.ofTokens (ts ++ [⟨.endOfFile, pl, l⟩])) ∧
    ∀ (us : List Token) (pl : Option Payload) (l : Location),
      Program.ofTokens (⟨.endOfFile, pl, l⟩ :: us) = .ok ⟨[]⟩ := by
  refine ⟨fun qs => ((IndexCursor.valid_new ts).afterAll qs).laws, fun qs => ?_,
    fun us pl l => ?_, fun us pl l => Program.ofTokens_end_cons rfl us⟩
  · rw [← atIndex_zero]
    exact (IndexCursor.valid_new ts).askAll_atIndex qs
  · rw [List.append_assoc, List.singleton_append]
    exact Program.ofTokens_append_end rfl

end LangFront
