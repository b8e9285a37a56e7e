/-!
# Layout pieces and their printer

A layout is a list of pieces: text, line breaks, and steps of the indentation level in or out.
The printer writes the pieces in order. It indents a line only when the first non-empty text of
that line arrives, by the current level times the indentation width; so a line that holds no
text has no trailing blanks, and a line break inside a text is not followed by indentation.
Stepping out below level zero stays at level zero.
-/

namespace LangFront.Layout

/-- One piece of a layout. -/
inductive Piece where
  /-- Text written as it is. -/
  | text (s : String)
  /-- A line break. -/
  | newline
  /-- One level of indentation more, from the next line on. -/
  | indent
  /-- One level of indentation less, but never below zero. -/
  | dedent
deriving DecidableEq, Repr

/-- What the printer has written so far, its indentation level, and whether nothing has been
written on the current line yet. -/
structure Printer where
  out : String := ""
  level : Nat := 0
  atLineStart : Bool := true
deriving DecidableEq, Repr

namespace Printer

/-- Write a text; indent first if it is the first non-empty text of its line. -/
def write (width : Nat) (p : Printer) (s : String) : Printer :=
  if s.isEmpty then p
  else if p.atLineStart then
    { p with out := p.out ++ String.ofList (List.replicate (p.level * width) ' ') ++ s,
             atLineStart := false }
  else { p with out := p.out ++ s }

/-- Print one piece. -/
def step (width : Nat) (p : Printer) : Piece → Printer
  | .text s => p.write width s
  | .newline => { p with out := p.out.push '\n', atLineStart := true }
  | .indent => { p with level := p.level + 1 }
  | .dedent => { p with level := p.level - 1 }

end Printer

/-- Print a layout with the given indentation width, from an empty page. -/
def print (width : Nat) (ps : List Piece) : String :=
  (ps.foldl (Printer.step width) {}).out

end LangFront.Layout
