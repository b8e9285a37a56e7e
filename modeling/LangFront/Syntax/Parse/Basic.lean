import LangFront.Token.Stream
import LangFront.Syntax.ParseError
/-!
# Reading steps

The parser reads a stream from the front and never goes back. Every reading step here returns
what it read together with the stream after it, and that stream is never longer (`Rest s`), so
the parser's loops end by the size of the stream.

A step that fails reports the token where the stream stands, unread.
-/

namespace LangFront.Parse

open Token

/-- A stream that is no longer than `s`: what is left after reading from `s`. -/
abbrev Rest (s : Stream) := { s' : Stream // s'.size ≤ s.size }

/-- The stream `s` itself, as a rest of itself. -/
def Rest.self (s : Stream) : Rest s := ⟨s, Nat.le_refl _⟩

/-- The error for reason `r` at the token where `s` stands. -/
def stuck (r : Reason) (s : Stream) : ParseError := ⟨r, s.current⟩

/-- Read a token of kind `k`, or fail with reason `r`. -/
def expect (k : Kind) (r : Reason) (s : Stream) : Except ParseError (Rest s) :=
  match h : s.accept? k with
  | some (_, s') => .ok ⟨s', Stream.size_le_of_accept? h⟩
  | none => .error (stuck r s)

/-- Read a name if a name token stands next; a name token without a name is an error. -/
def name? (s : Stream) : Except ParseError (Option (String × Rest s)) :=
  if s.peekIs .identifier then
    match s.current.name? with
    | some x => .ok (some (x, ⟨s.advance, Stream.size_advance_le s⟩))
    | none => .error (stuck .nameMissing s)
  else .ok none

/-- Read a name, or fail with reason `r`. -/
def expectName (r : Reason) (s : Stream) : Except ParseError (String × Rest s) :=
  match name? s with
  | .error e => .error e
  | .ok none => .error (stuck r s)
  | .ok (some p) => .ok p

theorem expect_eq_ok {k : Kind} {r : Reason} {s : Stream} {s' : Rest s}
    (h : expect k r s = .ok s') : s.current.kind = k ∧ s'.val = s.advance := by
  unfold expect at h
  split at h
  · rename_i t s'' hs
    cases h
    obtain ⟨h1, _, h3⟩ := Stream.accept?_eq_some.1 hs
    exact ⟨h1, h3⟩
  · cases h

end LangFront.Parse
