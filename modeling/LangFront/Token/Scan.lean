import LangFront.Text.CharClass
import LangFront.Token.Basic
/-!
# Scanning a text into tokens

`Token.scan` reads a text from left to right. Blanks are dropped. At any other character one
lexeme is read, always the longest one that starts there:

* a run of ASCII digits is a number, whose value must fit in 32 bits;
* an alphabetic character and the alphanumeric run after it is a name, or a keyword when the
  whole run is spelt like one;
* otherwise a symbol of two characters if there is one, else a symbol of one character, and
  any other character is refused where it stands.

The last token is always the end of the text, at the location just past its last character.

The main facts are `Lexeme.text_append_rest` (a lexeme is a non-empty front piece of the text)
and `scanFrom_nil` (what is left of an empty text is one end token).
-/

namespace LangFront.Token

open LangFront.Text

/-- Why a text cannot be scanned. -/
inductive ScanError where
  /-- A character that starts no lexeme. -/
  | unexpected (c : Char) (location : Location)
  /-- A number literal whose value does not fit in 32 bits, with all its digits. -/
  | overflow (digits : String) (location : Location)
deriving DecidableEq, Repr

namespace ScanError

/-- Where the refused character or literal starts. -/
def location : ScanError → Location
  | .unexpected _ l => l
  | .overflow _ l => l

/-- The message that reports the error. -/
def message : ScanError → String
  | .unexpected c l =>
    s!"Lexer error at line {l.line}, column {l.column}: unexpected character '{c}' at offset {l.offset}"
  | .overflow ds l =>
    s!"Lexer error at line {l.line}, column {l.column}: integer literal {ds} does not fit in 32 bits"

end ScanError

/-- The largest value a number literal may have: the largest 32-bit signed integer. -/
def maxLiteral : Nat := 2147483647

/-- The value of a run of decimal digits, most significant first. -/
def digitsValue (ds : List Char) : Nat :=
  ds.foldl (fun n d => 10 * n + (d.toNat - '0'.toNat)) 0

/-- The value of a run of decimal digits, but never more than `bound`: once the value read so far
reaches the bound it stays there, so a long run costs no large numbers. -/
def boundedValue (bound : Nat) (ds : List Char) : Nat :=
  ds.foldl (fun n d => min (10 * n + (d.toNat - '0'.toNat)) bound) 0

theorem foldl_bounded (bound a : Nat) (ds : List Char) :
    ds.foldl (fun n d => min (10 * n + (d.toNat - '0'.toNat)) bound) (min a bound) =
      min (ds.foldl (fun n d => 10 * n + (d.toNat - '0'.toNat)) a) bound := by
  induction ds generalizing a with
  | nil => rfl
  | cons d ds ih =>
    simp only [List.foldl_cons]
    rw [← ih]
    congr 1
    omega

theorem boundedValue_eq (bound : Nat) (ds : List Char) :
    boundedValue bound ds = min (digitsValue ds) bound := by
  have h := foldl_bounded bound 0 ds
  simp only [Nat.zero_min] at h
  exact h

/-- The symbols of two characters. -/
def pairSymbol? : Char → Char → Option Kind
  | '=', '=' => some .equalsEquals
  | '!', '=' => some .notEquals
  | '<', '=' => some .lessThanOrEqual
  | '>', '=' => some .greaterThanOrEqual
  | '&', '&' => some .ampersandAmpersand
  | '|', '|' => some .pipePipe
  | _, _ => none

/-- The symbols of one character. -/
def singleSymbol? : Char → Option Kind
  | '(' => some .openParen
  | ')' => some .closeParen
  | '{' => some .openBrace
  | '}' => some .closeBrace
  | '[' => some .openBracket
  | ']' => some .closeBracket
  | ':' => some .colon
  | ';' => some .semicolon
  | ',' => some .comma
  | '.' => some .dot
  | '+' => some .plus
  | '-' => some .minus
  | '*' => some .asterisk
  | '/' => some .slash
  | '=' => some .equals
  | '<' => some .lessThan
  | '>' => some .greaterThan
  | '&' => some .ampersand
  | '|' => some .pipe
  | _ => none

/-- One lexeme read from the front of a text: the token it makes, the characters it spans, and
the text after it. -/
structure Lexeme where
  /-- The token the lexeme makes. -/
  token : Token
  /-- The characters of the lexeme. -/
  text : List Char
  /-- What follows the lexeme. -/
  rest : List Char

/-- The token a name run makes: a keyword if the whole run is spelt like one, else a name. -/
def wordToken (w : List Char) (l : Location) : Token :=
  match Kind.keyword? (String.ofList w) with
  | some k => ⟨k, none, l⟩
  | none => .ofName (String.ofList w) l

/-- Read a number at `l` from the text `c :: cs`, whose first character is a digit: the whole
run of digits, refused if its value does not fit in 32 bits. -/
def readNumber (l : Location) (c : Char) (cs : List Char) : Except ScanError Lexeme :=
  if boundedValue (maxLiteral + 1) (c :: cs.takeWhile isDigit) ≤ maxLiteral then
    .ok ⟨.ofNumber (Int32.ofNat (boundedValue (maxLiteral + 1) (c :: cs.takeWhile isDigit))) l,
      c :: cs.takeWhile isDigit, cs.dropWhile isDigit⟩
  else .error (.overflow (String.ofList (c :: cs.takeWhile isDigit)) l)

/-- Read a name or keyword at `l` from the text `c :: cs`, whose first character is
alphabetic: the whole alphanumeric run. -/
def readWord (l : Location) (c : Char) (cs : List Char) : Lexeme :=
  ⟨wordToken (c :: cs.takeWhile isAlphanumeric) l, c :: cs.takeWhile isAlphanumeric,
    cs.dropWhile isAlphanumeric⟩

/-- Read a symbol of one character at `l` from the text `c :: cs`. -/
def readSingle (l : Location) (c : Char) (cs : List Char) : Except ScanError Lexeme :=
  match singleSymbol? c with
  | some k => .ok ⟨⟨k, none, l⟩, [c], cs⟩
  | none => .error (.unexpected c l)

/-- Read a symbol at `l` from the text `c :: cs`: a pair if one matches, else a single. -/
def readSymbol (l : Location) (c : Char) : List Char → Except ScanError Lexeme
  | d :: rest =>
    match pairSymbol? c d with
    | some k => .ok ⟨⟨k, none, l⟩, [c, d], rest⟩
    | none => readSingle l c (d :: rest)
  | [] => readSingle l c []

/-- Read the longest lexeme at `l` from the text `c :: cs`, whose first character `c` is not a
blank. Digits are tried before letters, and a symbol last. -/
def readLexeme (l : Location) (c : Char) (cs : List Char) : Except ScanError Lexeme :=
  if isDigit c then readNumber l c cs
  else if isAlphabetic c then .ok (readWord l c cs)
  else readSymbol l c cs

theorem readNumber_text_append_rest {l : Location} {c : Char} {cs : List Char} {x : Lexeme}
    (h : readNumber l c cs = .ok x) : x.text ++ x.rest = c :: cs ∧ x.text ≠ [] := by
  unfold readNumber at h
  split at h
  · cases h; simp [List.takeWhile_append_dropWhile]
  · cases h

theorem readSingle_text_append_rest {l : Location} {c : Char} {cs : List Char} {x : Lexeme}
    (h : readSingle l c cs = .ok x) : x.text ++ x.rest = c :: cs ∧ x.text ≠ [] := by
  unfold readSingle at h
  split at h
  · cases h; simp
  · cases h

theorem readSymbol_text_append_rest {l : Location} {c : Char} {cs : List Char} {x : Lexeme}
    (h : readSymbol l c cs = .ok x) : x.text ++ x.rest = c :: cs ∧ x.text ≠ [] := by
  cases cs with
  | nil => exact readSingle_text_append_rest h
  | cons d rest =>
    simp only [readSymbol] at h
    split at h
    · cases h; simp
    · exact readSingle_text_append_rest h

/-- A lexeme is a non-empty front piece of the text it was read from. -/
theorem Lexeme.text_append_rest {l : Location} {c : Char} {cs : List Char} {x : Lexeme}
    (h : readLexeme l c cs = .ok x) : x.text ++ x.rest = c :: cs ∧ x.text ≠ [] := by
  unfold readLexeme at h
  split at h
  · exact readNumber_text_append_rest h
  · split at h
    · cases h; simp [readWord, List.takeWhile_append_dropWhile]
    · exact readSymbol_text_append_rest h

theorem Lexeme.rest_length_lt {l : Location} {c : Char} {cs : List Char} {x : Lexeme}
    (h : readLexeme l c cs = .ok x) : x.rest.length < cs.length + 1 := by
  obtain ⟨h1, h2⟩ := Lexeme.text_append_rest h
  have := congrArg List.length h1
  simp only [List.length_append, List.length_cons] at this
  have : x.text.length ≠ 0 := by simpa using h2
  omega

/-- Scan the text `cs`, which starts at `l`, to its end. -/
def scanFrom (l : Location) (cs : List Char) : Except ScanError (List Token) :=
  match cs with
  | [] => .ok [Token.endOfFile l]
  | c :: cs' =>
    if isBlank c then scanFrom (l.next c) cs'
    else
      match hx : readLexeme l c cs' with
      | .error e => .error e
      | .ok x =>
        have _ : x.rest.length < cs'.length + 1 := Lexeme.rest_length_lt hx
        match scanFrom (l.advance x.text) x.rest with
        | .ok ts => .ok (x.token :: ts)
        | .error e => .error e
termination_by cs.length
decreasing_by all_goals simp only [List.length_cons]; omega

/-- Scan a text into its tokens, the last of which is the end of the text. -/
def scan (s : String) : Except ScanError (List Token) :=
  scanFrom Location.start s.toList

@[simp] theorem scanFrom_nil (l : Location) : scanFrom l [] = .ok [Token.endOfFile l] := by
  simp [scanFrom]

example : scan "" = .ok [Token.endOfFile Location.start] := by
  simp [scan]

end LangFront.Token
