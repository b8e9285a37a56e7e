import LangFront.Token.Basic
/-!
# Token streams

A stream is what a parser reads: the tokens still ahead of it, and the end token that stands
after them. Reading never passes the end token, so a stream that has reached it stays there
however often it is asked to move on.

A stream is made from any list of tokens (`Stream.ofList`). It stops at the first end token of
the list; when the list has none, a fresh end token is put after the list's last token, at that
token's location. So what follows the first end token can never be read.

The invariants that no token ahead is an end token and that the sentinel is one are fields of
the structure. The main facts are `Stream.accept?_eq_some` (what accepting a token does),
`Stream.size_lt_of_accept?` (accepting a token that is not the end shortens the stream) and
`Stream.advance_of_hasEnded` (the end is sticky).
-/

namespace LangFront.Token

/-- The tokens a parser has still to read, followed by the end token. -/
structure Stream where
  /-- The tokens before the end token, in order. -/
  ahead : List Token
  /-- The end token, which stays current once reached. -/
  sentinel : Token
  /-- No token ahead is an end token. -/
  ahead_not_end : ∀ t ∈ ahead, t.isEnd = false
  /-- The sentinel is an end token. -/
  sentinel_end : sentinel.isEnd = true

namespace Stream

/-- The end token that closes a list of tokens: its first end token, or else a fresh one at the
location of its last token (or at the zero location when the list is empty). -/
def sentinelOf (ts : List Token) : Token :=
  match ts.find? Token.isEnd with
  | some t => t
  | none => Token.endOfFile ((ts.getLast?.map Token.location).getD default)

theorem sentinelOf_isEnd (ts : List Token) : (sentinelOf ts).isEnd = true := by
  unfold sentinelOf
  split
  · rename_i t h
    exact List.find?_some h
  · rfl

/-- The stream that reads `ts` up to its first end token. -/
def ofList (ts : List Token) : Stream where
  ahead := ts.takeWhile fun t => !t.isEnd
  sentinel := sentinelOf ts
  ahead_not_end t h := by simpa using List.all_eq_true.1 List.all_takeWhile t h
  sentinel_end := sentinelOf_isEnd ts

/-- The number of tokens before the end. -/
def size (s : Stream) : Nat := s.ahead.length

/-- The token the stream stands at. -/
def current (s : Stream) : Token :=
  match s.ahead with
  | t :: _ => t
  | [] => s.sentinel

/-- Has the stream reached its end token? -/
def hasEnded (s : Stream) : Bool := s.ahead.isEmpty

/-- Does the current token have kind `k`? Nothing is read. -/
def peekIs (s : Stream) (k : Kind) : Bool := s.current.kind = k

/-- Move past the current token, unless it is the end token. -/
def advance (s : Stream) : Stream where
  ahead := s.ahead.tail
  sentinel := s.sentinel
  ahead_not_end t h := s.ahead_not_end t (List.mem_of_mem_tail h)
  sentinel_end := s.sentinel_end

/-- Read the current token if it has kind `k`: the token and the stream after it. -/
def accept? (s : Stream) (k : Kind) : Option (Token × Stream) :=
  if s.peekIs k then some (s.current, s.advance) else none

@[simp] theorem size_advance (s : Stream) : s.advance.size = s.size - 1 := by
  simp [size, advance]

theorem advance_of_hasEnded {s : Stream} (h : s.hasEnded = true) : s.advance = s := by
  cases s with
  | mk ahead sentinel _ _ =>
    simp only [hasEnded, List.isEmpty_iff] at h
    subst h
    rfl

theorem hasEnded_eq_current_isEnd (s : Stream) : s.hasEnded = s.current.isEnd := by
  unfold hasEnded current
  split
  · rename_i t rest h
    simp [h, s.ahead_not_end t (by simp [h])]
  · rename_i h
    simp [h, s.sentinel_end]

/-- A token of kind `k` is accepted exactly when the current token has that kind; it is the
current token, and the stream moves past it. -/
theorem accept?_eq_some {s s' : Stream} {k : Kind} {t : Token} :
    s.accept? k = some (t, s') ↔ s.current.kind = k ∧ t = s.current ∧ s' = s.advance := by
  unfold accept? peekIs
  by_cases hk : s.current.kind = k
  · simp only [hk, decide_true, if_true, Option.some.injEq, Prod.mk.injEq, true_and]
    exact ⟨fun h => ⟨h.1.symm, h.2.symm⟩, fun h => ⟨h.1.symm, h.2.symm⟩⟩
  · simp [hk]

theorem accept?_eq_none {s : Stream} {k : Kind} : s.accept? k = none ↔ s.current.kind ≠ k := by
  unfold accept? peekIs
  by_cases hk : s.current.kind = k <;> simp [hk]

theorem hasEnded_eq_false {s : Stream} (h : s.current.kind ≠ .endOfFile) : s.hasEnded = false := by
  rw [hasEnded_eq_current_isEnd]
  simpa [Token.isEnd] using h

theorem size_lt_of_not_hasEnded {s : Stream} (h : s.hasEnded = false) :
    s.advance.size < s.size := by
  have : s.ahead ≠ [] := by simpa [hasEnded] using h
  have : 0 < s.size := List.length_pos_iff.2 this
  simp only [size_advance]
  omega

theorem size_advance_lt {s : Stream} (h : s.current.kind ≠ .endOfFile) :
    s.advance.size < s.size :=
  size_lt_of_not_hasEnded (hasEnded_eq_false h)

theorem size_advance_le (s : Stream) : s.advance.size ≤ s.size := by
  simp only [size_advance]
  omega

theorem size_le_of_accept? {s s' : Stream} {k : Kind} {t : Token}
    (h : s.accept? k = some (t, s')) : s'.size ≤ s.size := by
  obtain ⟨_, _, rfl⟩ := accept?_eq_some.1 h
  exact size_advance_le s

/-- Accepting a token of a kind other than the end shortens the stream. -/
theorem size_lt_of_accept? {s s' : Stream} {k : Kind} {t : Token}
    (h : s.accept? k = some (t, s')) (hk : k ≠ .endOfFile) : s'.size < s.size := by
  obtain ⟨h1, _, rfl⟩ := accept?_eq_some.1 h
  exact size_advance_lt (h1 ▸ hk)

/-- A question put to a stream. -/
inductive Query where
  /-- Read a token of kind `k` if it is current; answer whether one was read. -/
  | check (k : Kind)
  /-- Read a token of kind `k` if it is current; answer the token read, if any. -/
  | take (k : Kind)
  /-- Is the current token of kind `k`? Nothing is read. -/
  | peekIs (k : Kind)
  /-- The current token. -/
  | current
  /-- Has the stream reached its end token? -/
  | hasEnded

/-- The answer to a query. -/
inductive Reply where
  | flag (b : Bool)
  | token (t : Token)
  | taken (t : Option Token)

/-- Answer one query, with the stream after it. -/
def ask (s : Stream) : Query → Reply × Stream
  | .check k =>
    match s.accept? k with
    | some (_, s') => (.flag true, s')
    | none => (.flag false, s)
  | .take k =>
    match s.accept? k with
    | some (t, s') => (.taken (some t), s')
    | none => (.taken none, s)
  | .peekIs k => (.flag (s.peekIs k), s)
  | .current => (.token s.current, s)
  | .hasEnded => (.flag s.hasEnded, s)

/-- Answer queries one after another, each on the stream the previous one left. -/
def askAll (s : Stream) : List Query → List Reply
  | [] => []
  | q :: qs => (s.ask q).1 :: askAll (s.ask q).2 qs

end Stream

end LangFront.Token
