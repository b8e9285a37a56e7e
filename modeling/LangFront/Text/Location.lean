/-!
# Source locations

A location names a character of a source text in three ways: its offset, the number of
characters before it; its line; and its column, both counted from one. Only a line feed starts a
new line. Every other character, a tab or a carriage return included, moves one column on.

`Location.advance l cs` is where reading the characters `cs` from `l` ends, so the location of
every character of a text is `Location.start.advance` of the characters before it.
`Location.ofPrefix` computes the same location from the characters before it at once.
-/

namespace LangFront

/-- Where a character stands in a source text. -/
structure Location where
  /-- The number of characters before it. -/
  offset : Nat
  /-- Its line, counted from one. -/
  line : Nat
  /-- Its column, counted from one. -/
  column : Nat
deriving DecidableEq, Repr

namespace Location

/-- The location of a token made by hand without one: every field is zero. -/
instance : Inhabited Location := ⟨⟨0, 0, 0⟩⟩

/-- The location of the first character of a text. -/
def start : Location := ⟨0, 1, 1⟩

/-- The location just after the character `c` that stands at `l`. -/
def next (l : Location) (c : Char) : Location :=
  if c = '\n' then ⟨l.offset + 1, l.line + 1, 1⟩ else ⟨l.offset + 1, l.line, l.column + 1⟩

/-- The location just after the characters `cs`, read from `l`. -/
def advance (l : Location) (cs : List Char) : Location :=
  cs.foldl next l

/-- Where the line of the character after the text `p` starts: the index just after the last
line feed of `p`, or zero if `p` has none. -/
def lineStart (p : List Char) : Nat :=
  (p.reverse.dropWhile (· != '\n')).length

/-- The location just after the text `p`, computed from the whole of `p`: its offset is the length
of `p`, its line one more than the line feeds of `p`, and its column one more than the characters
of `p` after the start of its last line. -/
def ofPrefix (p : List Char) : Location :=
  ⟨p.length, p.count '\n' + 1, p.length - lineStart p + 1⟩

@[simp] theorem advance_nil (l : Location) : l.advance [] = l := rfl

@[simp] theorem advance_cons (l : Location) (c : Char) (cs : List Char) :
    l.advance (c :: cs) = (l.next c).advance cs := rfl

theorem advance_append (l : Location) (cs ds : List Char) :
    l.advance (cs ++ ds) = (l.advance cs).advance ds := by
  simp [advance, List.foldl_append]

@[simp] theorem offset_next (l : Location) (c : Char) : (l.next c).offset = l.offset + 1 := by
  unfold next
  split <;> rfl

@[simp] theorem offset_advance (l : Location) (cs : List Char) :
    (l.advance cs).offset = l.offset + cs.length := by
  induction cs generalizing l with
  | nil => rfl
  | cons c cs ih => simp only [advance_cons, ih, offset_next, List.length_cons]; omega

end Location

end LangFront
