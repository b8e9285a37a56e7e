import LangFront.Text.Alphabetic
import LangFront.Text.Numeric
/-!
# Character classes of the scanner

Four classes decide how the scanner reads a text:

* blanks, which separate tokens and are dropped: space, tab, carriage return and line feed,
  and nothing else;
* digits, which make number literals: the ASCII digits `0` to `9` only;
* alphabetic characters, which may start a name: the Unicode property Alphabetic;
* alphanumeric characters, which may continue a name: alphabetic ones and those whose general
  category is a number, in any script.

On ASCII the Unicode classes are answered directly; beyond it the range tables of
`LangFront.Text.Alphabetic` and `LangFront.Text.Numeric` are consulted.
-/

namespace LangFront.Text

/-- Does `n` lie in one of the closed ranges `rs`? -/
def inRanges (rs : List (Nat × Nat)) (n : Nat) : Bool :=
  rs.any fun r => r.1 ≤ n && n ≤ r.2

/-- Blanks separate tokens: space, tab, carriage return and line feed. -/
def isBlank (c : Char) : Bool :=
  c = ' ' || c = '\t' || c = '\r' || c = '\n'

/-- The ASCII digits `0` to `9`, the only characters of a number literal. -/
def isDigit (c : Char) : Bool :=
  '0' ≤ c && c ≤ '9'

/-- Characters with the Unicode property Alphabetic. -/
def isAlphabetic (c : Char) : Bool :=
  if c.toNat < 128 then ('A' ≤ c && c ≤ 'Z') || ('a' ≤ c && c ≤ 'z')
  else inRanges alphabeticRanges c.toNat

/-- Characters whose Unicode general category is a number: Nd, Nl or No. -/
def isNumeric (c : Char) : Bool :=
  if c.toNat < 128 then isDigit c else inRanges numericRanges c.toNat

/-- Characters that may continue a name: alphabetic or numeric ones. -/
def isAlphanumeric (c : Char) : Bool :=
  isAlphabetic c || isNumeric c

theorem isNumeric_of_isDigit {c : Char} (h : isDigit c = true) : isNumeric c = true := by
  have hc : c.toNat < 128 := by
    simp only [isDigit, Bool.and_eq_true, decide_eq_true_eq] at h
    have := h.2
    rw [Char.le_def] at this
    change c.val.toNat < 128
    have : c.val.toNat ≤ 57 := by simpa [UInt32.le_iff_toNat_le] using this
    omega
  simp [isNumeric, hc, h]

theorem isAlphanumeric_of_isAlphabetic {c : Char} (h : isAlphabetic c = true) :
    isAlphanumeric c = true := by
  simp [isAlphanumeric, h]

end LangFront.Text
