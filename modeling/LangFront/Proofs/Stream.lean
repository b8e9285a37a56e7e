import Mathlib
import LangFront.Token.Stream
/-!
# Reading a stream as a list

What a parser reads from a stream is a front piece of the stream's tokens. `Stream.Reads s u s'`
says that reading the tokens `u` from `s` leaves `s'`: the tokens ahead of `s` are `u` followed
by those ahead of `s'`, and both close with the same end token. Every reading step of the parser
is described by this relation, so its results can be compared with phrases of a grammar, which
are lists.

A cursor over a list of tokens holds the list itself when its last token is an end token, and
else the list with a fresh end token put after it (`cursorTokens`). The stream made from the list
shows exactly that list cut after its first end token (`Stream.toList_ofList`).
-/

namespace LangFront.Token.Stream

/-- The tokens a stream can still show: those ahead of it, then its end token. -/
def toList (s : Stream) : List Token := s.ahead ++ [s.sentinel]

/-- Reading the tokens `u` from `s` leaves `s'`. -/
def Reads (s : Stream) (u : List Token) (s' : Stream) : Prop :=
  s.ahead = u ++ s'.ahead ∧ s'.sentinel = s.sentinel

theorem ext_ahead {s s' : Stream} (h1 : s.ahead = s'.ahead) (h2 : s.sentinel = s'.sentinel) :
    s = s' := by
  cases s
  cases s'
  simp only at h1 h2
  subst h1 h2
  rfl

theorem current_eq_head (s : Stream) : s.current = s.toList.head (by simp [toList]) := by
  unfold current toList
  cases s.ahead <;> rfl

theorem toList_eq_current_cons (s : Stream) : s.toList = s.current :: s.toList.tail := by
  rw [current_eq_head]
  exact (List.cons_head_tail _).symm

theorem ahead_eq_current_cons {s : Stream} (h : s.current.kind ≠ .endOfFile) :
    s.ahead = s.current :: s.advance.ahead := by
  rcases s with ⟨ahead, sentinel, h1, h2⟩
  cases ahead with
  | nil => exact absurd (by simpa [current, Token.isEnd] using h2) h
  | cons a rest => rfl

namespace Reads

variable {s s' s'' : Stream} {t : Token} {u v : List Token}

theorem refl (s : Stream) : Reads s [] s := ⟨rfl, rfl⟩

theorem nil_iff : Reads s [] s' ↔ s' = s := by
  constructor
  · rintro ⟨h1, h2⟩
    exact ext_ahead h1.symm h2
  · rintro rfl
    exact refl _

theorem trans (h : Reads s u s') (h' : Reads s' v s'') : Reads s (u ++ v) s'' :=
  ⟨by rw [h.1, h'.1, List.append_assoc], h'.2.trans h.2⟩

theorem toList_eq (h : Reads s u s') : s.toList = u ++ s'.toList := by
  simp [toList, h.1, h.2]

theorem single_iff (ht : t.kind ≠ .endOfFile) :
    Reads s [t] s' ↔ s.current = t ∧ s' = s.advance := by
  constructor
  · rintro ⟨h1, h2⟩
    refine ⟨by simp [current, h1], ext_ahead ?_ ?_⟩
    · simp [advance, h1]
    · simp [advance, h2]
  · rintro ⟨rfl, rfl⟩
    exact ⟨ahead_eq_current_cons ht, rfl⟩

theorem cons_iff (ht : t.kind ≠ .endOfFile) :
    Reads s (t :: u) s'' ↔ s.current = t ∧ Reads s.advance u s'' := by
  constructor
  · rintro ⟨h1, h2⟩
    have hc : s.current = t := by simp [current, h1]
    refine ⟨hc, ?_, ?_⟩
    · simp [advance, h1]
    · simpa [advance] using h2
  · rintro ⟨hc, h⟩
    have h1 := (single_iff ht).2 ⟨hc, rfl⟩
    exact h1.trans h

theorem of_ahead_eq (h : s.ahead = u ++ v) : ∃ s', Reads s u s' ∧ s'.ahead = v := by
  let s' : Stream :=
    { ahead := v
      sentinel := s.sentinel
      ahead_not_end := fun t ht => s.ahead_not_end t (by
        rw [h]
        exact List.mem_append_right _ ht)
      sentinel_end := s.sentinel_end }
  exact ⟨s', ⟨h, rfl⟩, rfl⟩

theorem split (h : Reads s (u ++ v) s'') : ∃ s', Reads s u s' ∧ Reads s' v s'' := by
  obtain ⟨s', hu, hv⟩ := of_ahead_eq (h.1.trans (List.append_assoc u v s''.ahead))
  exact ⟨s', hu, ⟨hv, h.2.trans hu.2.symm⟩⟩

theorem current_eq_of_cons (h : Reads s (t :: u) s') : s.current = t := by
  simp [current, h.1]

end Reads

/-- The tokens a cursor over `ts` holds: `ts` itself when its last token is an end token, else
`ts` followed by a fresh end token at the location of its last token, or at the zero location
when `ts` is empty. -/
def cursorTokens (ts : List Token) : List Token :=
  if ts.getLast?.any Token.isEnd then ts
  else ts ++ [Token.endOfFile ((ts.getLast?.map Token.location).getD default)]

/-- A list cut after its first end token, if it has one. -/
def cutAtEnd (ts : List Token) : List Token :=
  ts.takeWhile (fun t => !t.isEnd) ++ (ts.find? Token.isEnd).toList

private theorem takeWhile_append_end {p : Token → Bool} {x : Token} (hx : p x = false)
    (ts : List Token) : (ts ++ [x]).takeWhile p = ts.takeWhile p := by
  induction ts with
  | nil => simp [hx]
  | cons a ts ih => by_cases ha : p a <;> simp [ha, ih]

theorem takeWhile_cursorTokens (ts : List Token) :
    (cursorTokens ts).takeWhile (fun t => !t.isEnd) = ts.takeWhile (fun t => !t.isEnd) := by
  unfold cursorTokens
  split
  · rfl
  · exact takeWhile_append_end (by simp [Token.endOfFile, Token.isEnd]) ts

theorem find?_cursorTokens (ts : List Token) :
    (cursorTokens ts).find? Token.isEnd = some (sentinelOf ts) := by
  unfold cursorTokens sentinelOf
  split
  · rename_i hlast
    obtain ⟨t, ht, hend⟩ := (Option.any_eq_true _ _).1 hlast
    cases hf : ts.find? Token.isEnd with
    | none => exact absurd hend (by simpa using List.find?_eq_none.1 hf t (List.mem_of_getLast? ht))
    | some t' => rfl
  · rw [List.find?_append]
    cases ts.find? Token.isEnd <;> simp [Token.endOfFile, Token.isEnd]

theorem cutAtEnd_append (ts : List Token) : ∃ rest, cutAtEnd ts ++ rest = ts := by
  induction ts with
  | nil => exact ⟨[], rfl⟩
  | cons t ts ih =>
    cases ht : t.isEnd with
    | true => exact ⟨ts, by simp [cutAtEnd, ht]⟩
    | false =>
      obtain ⟨rest, hrest⟩ := ih
      refine ⟨rest, ?_⟩
      simp only [cutAtEnd, List.takeWhile_cons, List.find?_cons, ht] at hrest ⊢
      simpa using hrest

/-- The stream made from a list shows the list a cursor holds, cut after its first end token. -/
theorem toList_ofList (ts : List Token) : (ofList ts).toList = cutAtEnd (cursorTokens ts) := by
  simp [toList, ofList, cutAtEnd, takeWhile_cursorTokens, find?_cursorTokens]

end LangFront.Token.Stream
