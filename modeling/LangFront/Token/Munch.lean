import Mathlib
import LangFront.Token.Scan
/-!
# Maximal munch

What the scanner reads, said without its loop. A text is blanks and lexemes one after the other,
and every lexeme is the longest one that starts where it stands:

* a run of ASCII digits with no digit after it is a number, if its value fits in 32 bits;
* an alphabetic character with the run of alphanumeric characters after it, with no alphanumeric
  character after the run, is a keyword when the whole run is spelt like one and a name
  otherwise;
* a symbol of two characters is read whole, and a symbol of one character only when the
  character after it does not make a symbol of two with it.

`Scans l cs ts` says that the text `cs`, read from `l`, is such a sequence and `ts` its tokens,
each at the location of its lexeme's first character, closed by one end token just past the
text. `Refused l cs e` says that `cs` is such a sequence up to a place where no lexeme starts, and
that `e` reports that place: a character that starts no lexeme, or a run of digits whose value
does not fit in 32 bits.
-/

namespace LangFront.Token

open Text

/-- `Munch l x rest t`: the text `x ++ rest`, read from `l`, starts with the longest lexeme `x`,
which makes the token `t`. -/
inductive Munch (l : Location) : List Char → List Char → Token → Prop
  /-- A run of digits with no digit after it, whose value fits in 32 bits. -/
  | number {ds rest : List Char} : ds ≠ [] → (∀ d ∈ ds, isDigit d = true) →
      (∀ d ∈ rest.head?, isDigit d = false) → digitsValue ds ≤ maxLiteral →
      Munch l ds rest (ofNumber (Int32.ofNat (digitsValue ds)) l)
  /-- A letter and the run of alphanumeric characters after it, spelt like a keyword. -/
  | keyword {c : Char} {cs rest : List Char} {k : Kind} : isAlphabetic c = true →
      (∀ d ∈ cs, isAlphanumeric d = true) → (∀ d ∈ rest.head?, isAlphanumeric d = false) →
      Kind.keyword? (String.ofList (c :: cs)) = some k → Munch l (c :: cs) rest ⟨k, none, l⟩
  /-- A letter and the run of alphanumeric characters after it, spelt like no keyword. -/
  | name {c : Char} {cs rest : List Char} : isAlphabetic c = true →
      (∀ d ∈ cs, isAlphanumeric d = true) → (∀ d ∈ rest.head?, isAlphanumeric d = false) →
      Kind.keyword? (String.ofList (c :: cs)) = none →
      Munch l (c :: cs) rest (ofName (String.ofList (c :: cs)) l)
  /-- A symbol of two characters. -/
  | pair {c d : Char} {rest : List Char} {k : Kind} : pairSymbol? c d = some k →
      Munch l [c, d] rest ⟨k, none, l⟩
  /-- A symbol of one character that makes no symbol of two with the character after it. -/
  | single {c : Char} {rest : List Char} {k : Kind} : singleSymbol? c = some k →
      (∀ d ∈ rest.head?, pairSymbol? c d = none) → Munch l [c] rest ⟨k, none, l⟩

/-- `Stuck l cs e`: no lexeme starts at the front of the text `cs`, read from `l`, and `e` says
why. -/
inductive Stuck (l : Location) : List Char → ScanError → Prop
  /-- A run of digits with no digit after it, whose value does not fit in 32 bits. -/
  | overflow {ds rest : List Char} : ds ≠ [] → (∀ d ∈ ds, isDigit d = true) →
      (∀ d ∈ rest.head?, isDigit d = false) → maxLiteral < digitsValue ds →
      Stuck l (ds ++ rest) (.overflow (String.ofList ds) l)
  /-- A character that is no blank, digit or letter, no symbol of one character, and that makes
  no symbol of two with the character after it. -/
  | unexpected {c : Char} {cs : List Char} : isBlank c = false → isDigit c = false →
      isAlphabetic c = false → singleSymbol? c = none → (∀ d ∈ cs.head?, pairSymbol? c d = none) →
      Stuck l (c :: cs) (.unexpected c l)

/-- `Scans l cs ts`: the text `cs`, read from `l`, is blanks and longest lexemes to its end, and
`ts` are the tokens of its lexemes followed by the end token. -/
inductive Scans : Location → List Char → List Token → Prop
  | done (l : Location) : Scans l [] [endOfFile l]
  | blank {l : Location} {c : Char} {cs : List Char} {ts : List Token} : isBlank c = true →
      Scans (l.next c) cs ts → Scans l (c :: cs) ts
  | lexeme {l : Location} {x rest : List Char} {t : Token} {ts : List Token} : Munch l x rest t →
      Scans (l.advance x) rest ts → Scans l (x ++ rest) (t :: ts)

/-- `Refused l cs e`: the text `cs`, read from `l`, is blanks and longest lexemes up to a place
where no lexeme starts, and `e` reports that place. -/
inductive Refused : Location → List Char → ScanError → Prop
  | blank {l : Location} {c : Char} {cs : List Char} {e : ScanError} : isBlank c = true →
      Refused (l.next c) cs e → Refused l (c :: cs) e
  | lexeme {l : Location} {x rest : List Char} {t : Token} {e : ScanError} : Munch l x rest t →
      Refused (l.advance x) rest e → Refused l (x ++ rest) e
  | stuck {l : Location} {cs : List Char} {e : ScanError} : Stuck l cs e → Refused l cs e

end LangFront.Token
