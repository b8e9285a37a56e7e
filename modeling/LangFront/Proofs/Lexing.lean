import LangFront.Token.Scan
import LangFront.Proofs.Grammar
import LangFront.Syntax.WellFormed
/-!
# What the scanner reads

Two facts about `Token.scan`.

* Every token it makes before the end token is a token of the text (`scan_lexical`): it is not
  an end token, a name token carries a name that scans back as one name, and a number token
  carries a literal that is not negative.
* A text built from names, literals, keywords, symbols and blanks scans to the tokens it was
  built from (`ScansTo`). Each piece is read whole as long as what follows it cannot continue
  it, which is what `Boundary` asks of the text after a piece: it starts with no character of
  a name and with no `=`, the only second character of a two-character symbol that a program
  text can hold.
-/

namespace LangFront.Token

open Text Grammar

/-! ## Character classes -/

theorem toNat_of_isDigit {c : Char} (h : isDigit c = true) : 48 ≤ c.toNat ∧ c.toNat ≤ 57 := by
  simp only [isDigit, Bool.and_eq_true, decide_eq_true_eq, Char.le_def,
    UInt32.le_iff_toNat_le] at h
  exact h

theorem isAlphabetic_of_isDigit {c : Char} (h : isDigit c = true) : isAlphabetic c = false := by
  have hc := toNat_of_isDigit h
  have h128 : c.toNat < 128 := by omega
  have hv : c.val.toNat = c.toNat := rfl
  simp only [isAlphabetic, h128, if_true, Char.le_def, UInt32.le_iff_toNat_le, hv]
  simp
  omega

theorem isAlphanumeric_of_isDigit {c : Char} (h : isDigit c = true) : isAlphanumeric c = true := by
  simp [isAlphanumeric, isNumeric_of_isDigit h]

theorem isBlank_of_isAlphabetic {c : Char} (h : isAlphabetic c = true) : isBlank c = false := by
  cases hb : isBlank c
  · rfl
  · simp only [isBlank, Bool.or_eq_true, decide_eq_true_eq] at hb
    rcases hb with ((rfl | rfl) | rfl) | rfl <;> simp_all [isAlphabetic]

theorem isBlank_of_isDigit {c : Char} (h : isDigit c = true) : isBlank c = false := by
  cases hb : isBlank c
  · rfl
  · simp only [isBlank, Bool.or_eq_true, decide_eq_true_eq] at hb
    rcases hb with ((rfl | rfl) | rfl) | rfl <;> simp_all [isDigit]

theorem isDigit_of_mem_toDigits {c : Char} {n : Nat} (h : c ∈ Nat.toDigits 10 n) :
    isDigit c = true := by
  have := Nat.isDigit_of_mem_toDigits (by decide) (by decide) h
  simpa [isDigit, Char.isDigit, Char.le_def] using this

theorem singleSymbol?_class {c : Char} {k : Kind} (h : singleSymbol? c = some k) :
    isBlank c = false ∧ isDigit c = false ∧ isAlphabetic c = false ∧ k ≠ .endOfFile := by
  unfold singleSymbol? at h
  split at h <;> cases h <;> decide

theorem pairSymbol?_ne_endOfFile {c d : Char} {k : Kind} (h : pairSymbol? c d = some k) :
    k ≠ .endOfFile := by
  unfold pairSymbol? at h
  split at h <;> cases h <;> decide

theorem keyword?_ne_endOfFile {s : String} {k : Kind} (h : Kind.keyword? s = some k) :
    k ≠ .endOfFile := by
  obtain ⟨p, hp, rfl⟩ := Option.map_eq_some_iff.1 h
  have hmem := List.mem_of_find?_eq_some hp
  simp only [Kind.keywords, List.mem_cons, List.not_mem_nil, or_false] at hmem
  rcases hmem with rfl | rfl | rfl | rfl | rfl | rfl <;> decide

/-! ## Tokens of a text -/

/-- A token as the scanner makes it: a name token carries a name that scans back as one name,
and a number token a literal that is not negative. -/
def Lexical (t : Token) : Prop :=
  (∀ x, NameToken t x → IsName x) ∧ ∀ n, NumberToken t n → 0 ≤ n.toInt

theorem lexical_of_payload_none {t : Token} (h : t.payload = none) : Lexical t := by
  refine ⟨fun x hx => ?_, fun n hn => ?_⟩
  · have := hx.2
    simp [name?, h] at this
  · have := hn.2
    simp [number?, h] at this

theorem wordToken_lexical {c : Char} {cs : List Char} {l : Location} (hc : isAlphabetic c = true)
    (hcs : ∀ d ∈ cs, isAlphanumeric d = true) :
    (wordToken (c :: cs) l).isEnd = false ∧ Lexical (wordToken (c :: cs) l) := by
  unfold wordToken
  split
  · rename_i k hk
    exact ⟨by simpa [isEnd] using keyword?_ne_endOfFile hk, lexical_of_payload_none rfl⟩
  · rename_i hk
    refine ⟨rfl, fun x hx => ?_, fun n hn => ?_⟩
    · have hx' : x = String.ofList (c :: cs) := by simpa [name?, ofName] using hx.2.symm
      subst hx'
      refine ⟨?_, hk⟩
      simp only [String.toList_ofList]
      exact ⟨hc, hcs⟩
    · have := hn.2
      simp [number?, ofName] at this

theorem readNumber_lexical {l : Location} {c : Char} {cs : List Char} {x : Lexeme}
    (h : readNumber l c cs = .ok x) : x.token.isEnd = false ∧ Lexical x.token := by
  unfold readNumber at h
  split at h
  · rename_i hv
    cases h
    refine ⟨rfl, fun x hx => ?_, fun n hn => ?_⟩
    · have := hx.1
      simp [ofNumber] at this
    · have hn' : n = Int32.ofNat (boundedValue (maxLiteral + 1) (c :: cs.takeWhile isDigit)) := by
        simpa [number?, ofNumber] using hn.2.symm
      rw [hn', Int32.toInt_ofNat_of_lt (by unfold maxLiteral at hv ⊢; omega)]
      exact Int.natCast_nonneg _
  · cases h

theorem readSingle_lexical {l : Location} {c : Char} {cs : List Char} {x : Lexeme}
    (h : readSingle l c cs = .ok x) : x.token.isEnd = false ∧ Lexical x.token := by
  unfold readSingle at h
  split at h
  · rename_i k hk
    cases h
    exact ⟨by simpa [isEnd] using (singleSymbol?_class hk).2.2.2, lexical_of_payload_none rfl⟩
  · cases h

theorem readSymbol_lexical {l : Location} {c : Char} {cs : List Char} {x : Lexeme}
    (h : readSymbol l c cs = .ok x) : x.token.isEnd = false ∧ Lexical x.token := by
  cases cs with
  | nil => exact readSingle_lexical h
  | cons d rest =>
    simp only [readSymbol] at h
    split at h
    · rename_i k hk
      cases h
      exact ⟨by simpa [isEnd] using pairSymbol?_ne_endOfFile hk, lexical_of_payload_none rfl⟩
    · exact readSingle_lexical h

theorem readLexeme_lexical {l : Location} {c : Char} {cs : List Char} {x : Lexeme}
    (h : readLexeme l c cs = .ok x) : x.token.isEnd = false ∧ Lexical x.token := by
  unfold readLexeme at h
  split at h
  · exact readNumber_lexical h
  · split at h
    · rename_i _ ha
      cases h
      exact wordToken_lexical ha fun d hd => by
        simpa using List.all_eq_true.1 List.all_takeWhile d hd
    · exact readSymbol_lexical h

theorem scanFrom_lexical {l : Location} {cs : List Char} :
    ∀ {ts : List Token}, scanFrom l cs = .ok ts →
      ∃ ts' l', ts = ts' ++ [endOfFile l'] ∧ ∀ t ∈ ts', t.isEnd = false ∧ Lexical t := by
  fun_induction scanFrom l cs with
  | case1 l =>
    intro ts h
    cases h
    exact ⟨[], l, rfl, by simp⟩
  | case2 l c cs _ ih => exact ih
  | case3 | case5 => intro _ h; cases h
  | case4 l c cs _ x hx _ ts _ ih =>
    intro ts' h
    cases h
    obtain ⟨us, l', rfl, hus⟩ := ih ‹_›
    refine ⟨x.token :: us, l', rfl, ?_⟩
    intro t ht
    rcases List.mem_cons.1 ht with rfl | ht
    · exact readLexeme_lexical hx
    · exact hus t ht

theorem scan_lexical {s : String} {ts : List Token} (h : scan s = .ok ts) :
    ∃ ts' l', ts = ts' ++ [endOfFile l'] ∧ ∀ t ∈ ts', t.isEnd = false ∧ Lexical t :=
  scanFrom_lexical h

/-! ## Scanning a text piece by piece -/

theorem isDigit_of_isAlphabetic {c : Char} (h : isAlphabetic c = true) : isDigit c = false := by
  cases hd : isDigit c
  · rfl
  · rw [isAlphabetic_of_isDigit hd] at h
    cases h

theorem scanFrom_blank {l : Location} {c : Char} {cs : List Char} (hc : isBlank c = true) :
    scanFrom l (c :: cs) = scanFrom (l.next c) cs := by
  rw [scanFrom, if_pos hc]

theorem scanFrom_lexeme {l : Location} {c : Char} {cs : List Char} {x : Lexeme}
    (hc : isBlank c = false) (hx : readLexeme l c cs = .ok x) :
    scanFrom l (c :: cs) = (scanFrom (l.advance x.text) x.rest).map (x.token :: ·) := by
  rw [scanFrom, if_neg (by simp [hc])]
  split
  · rename_i e he
    rw [hx] at he
    cases he
  · rename_i x' hx'
    rw [hx] at hx'
    cases hx'
    cases scanFrom (l.advance x.text) x.rest <;> rfl

/-- What may follow a piece of text without changing how the piece is read: nothing, or a
character that continues no name or number and completes no two-character symbol. -/
def Boundary (cs : List Char) : Prop :=
  ∀ c ∈ cs.head?, isAlphanumeric c = false ∧ c ≠ '='

theorem Boundary.nil : Boundary [] := by
  simp [Boundary]

theorem Boundary.cons {c : Char} {cs : List Char} (hc : isAlphanumeric c = false)
    (he : c ≠ '=') : Boundary (c :: cs) := by
  simp [Boundary, hc, he]

theorem Boundary.append {b rest : List Char} (hb : Boundary b) (hr : Boundary rest) :
    Boundary (b ++ rest) := by
  cases b with
  | nil => exact hr
  | cons c cs => exact hb

theorem takeWhile_of_boundary {p : Char → Bool} {rest : List Char} (hr : Boundary rest)
    (hp : ∀ c, p c = true → isAlphanumeric c = true) : rest.takeWhile p = [] := by
  cases rest with
  | nil => rfl
  | cons c cs =>
    have hc : p c = false := by
      cases h : p c
      · rfl
      · have := (hr c rfl).1
        rw [hp c h] at this
        cases this
    simp [hc]

theorem dropWhile_of_boundary {p : Char → Bool} {rest : List Char} (hr : Boundary rest)
    (hp : ∀ c, p c = true → isAlphanumeric c = true) : rest.dropWhile p = rest := by
  cases rest with
  | nil => rfl
  | cons c cs =>
    have hc : p c = false := by
      cases h : p c
      · rfl
      · have := (hr c rfl).1
        rw [hp c h] at this
        cases this
    simp [hc]

/-- Scanning the text `cs` from `l` gives the tokens `ts`, whatever follows it that satisfies
`B`. A piece that ends with a name or a number asks for a `Boundary` after it; a piece that
ends with a blank or with a symbol that starts no longer one asks for nothing. -/
def ScansTo (B : List Char → Prop) (l : Location) (cs : List Char) (ts : List Token) : Prop :=
  ∀ rest, B rest → scanFrom l (cs ++ rest) = (scanFrom (l.advance cs) rest).map (ts ++ ·)

theorem map_cons_map {ε : Type} (x : Except ε (List Token)) (t : Token) (ts : List Token) :
    (x.map (ts ++ ·)).map (t :: ·) = x.map ((t :: ts) ++ ·) := by
  cases x <;> rfl

namespace ScansTo

variable {B : List Char → Prop} {l : Location} {c : Char} {cs : List Char} {ts : List Token}

theorem nil (l : Location) : ScansTo B l [] [] := by
  intro rest _
  simp only [List.nil_append, Location.advance_nil]
  cases scanFrom l rest <;> rfl

theorem append {B₁ : List Char → Prop} {a b : List Char} {ts₁ ts₂ : List Token}
    (h₁ : ScansTo B₁ l a ts₁) (h₂ : ScansTo B (l.advance a) b ts₂)
    (hb : ∀ rest, B rest → B₁ (b ++ rest)) : ScansTo B l (a ++ b) (ts₁ ++ ts₂) := by
  intro rest hr
  rw [List.append_assoc, h₁ (b ++ rest) (hb rest hr), h₂ rest hr, Location.advance_append]
  cases scanFrom ((l.advance a).advance b) rest <;> simp [Except.map]

theorem blank (hc : isBlank c = true) (h : ScansTo B (l.next c) cs ts) :
    ScansTo B l (c :: cs) ts := by
  intro rest hr
  rw [List.cons_append, scanFrom_blank hc, h rest hr, Location.advance_cons]

theorem spaces (w : Nat) (h : ScansTo B (l.advance (List.replicate w ' ')) cs ts) :
    ScansTo B l (List.replicate w ' ' ++ cs) ts := by
  induction w generalizing l with
  | zero => simpa using h
  | succ w ih =>
    rw [List.replicate_succ, List.cons_append]
    exact blank rfl (ih h)

theorem readLexeme_single {k : Kind} {ds : List Char}
    (hk : singleSymbol? c = some k) (hp : ∀ d ∈ ds.head?, pairSymbol? c d = none) :
    readLexeme l c ds = .ok ⟨⟨k, none, l⟩, [c], ds⟩ := by
  have hcls := singleSymbol?_class hk
  rw [readLexeme, if_neg (by simp [hcls.2.1]), if_neg (by simp [hcls.2.2.1])]
  cases ds with
  | nil => simp [readSymbol, readSingle, hk]
  | cons d r => simp [readSymbol, hp d rfl, readSingle, hk]

theorem symbol {k : Kind} (hk : singleSymbol? c = some k) (hp : ∀ d, pairSymbol? c d = none)
    (h : ScansTo B (l.next c) cs ts) : ScansTo B l (c :: cs) (⟨k, none, l⟩ :: ts) := by
  intro rest hr
  rw [List.cons_append, scanFrom_lexeme (singleSymbol?_class hk).1
    (readLexeme_single hk fun d _ => hp d)]
  have hl : l.advance [c] = l.next c := rfl
  rw [hl, h rest hr, map_cons_map]
  rfl

theorem symbol_cons {d : Char} {k : Kind} (hk : singleSymbol? c = some k)
    (hp : pairSymbol? c d = none) (h : ScansTo B (l.next c) (d :: cs) ts) :
    ScansTo B l (c :: d :: cs) (⟨k, none, l⟩ :: ts) := by
  intro rest hr
  rw [List.cons_append, scanFrom_lexeme (singleSymbol?_class hk).1
    (readLexeme_single hk fun d' hd' => by simp_all)]
  have hl : l.advance [c] = l.next c := rfl
  rw [hl, h rest hr, map_cons_map]
  rfl

theorem symbols {k : Kind} (hk : singleSymbol? c = some k) (hp : ∀ d, pairSymbol? c d = none) :
    ∀ (n : Nat) {l : Location}, ScansTo B (l.advance (List.replicate n c)) cs ts →
      ∃ ps : List Token, ps.length = n ∧ (∀ p ∈ ps, p.kind = k) ∧
        ScansTo B l (List.replicate n c ++ cs) (ps ++ ts)
  | 0, l, h => ⟨[], rfl, by simp, by simpa using h⟩
  | n + 1, l, h => by
    obtain ⟨ps, hlen, hkind, hs⟩ := symbols hk hp n (l := l.next c) (by rwa [List.replicate_succ, Location.advance_cons] at h)
    refine ⟨⟨k, none, l⟩ :: ps, by simp [hlen], ?_, ?_⟩
    · intro p hmem
      rcases List.mem_cons.1 hmem with rfl | hmem
      · rfl
      · exact hkind p hmem
    · rw [List.replicate_succ, List.cons_append, List.cons_append]
      exact symbol hk hp hs

theorem scanFrom_eq (h : ScansTo B l cs ts) (hB : B []) :
    scanFrom l cs = .ok (ts ++ [endOfFile (l.advance cs)]) := by
  have := h [] hB
  rwa [List.append_nil, scanFrom_nil] at this

theorem word (hc : isAlphabetic c = true)
    (hcs : ∀ d ∈ cs, isAlphanumeric d = true) :
    ScansTo Boundary l (c :: cs) [wordToken (c :: cs) l] := by
  intro rest hr
  have hx : readLexeme l c (cs ++ rest) = .ok ⟨wordToken (c :: cs) l, c :: cs, rest⟩ := by
    rw [readLexeme, if_neg (by simp [isDigit_of_isAlphabetic hc]), if_pos hc]
    simp only [readWord, List.takeWhile_append_of_pos hcs, List.dropWhile_append_of_pos hcs,
      takeWhile_of_boundary hr (fun _ h => h), dropWhile_of_boundary hr (fun _ h => h),
      List.append_nil]
  rw [List.cons_append, scanFrom_lexeme (isBlank_of_isAlphabetic hc) hx]
  rfl

theorem name {x : String} (hx : IsName x) : ScansTo Boundary l x.toList [ofName x l] := by
  obtain ⟨hw, hk⟩ := hx
  cases h : x.toList with
  | nil =>
    rw [h] at hw
    exact hw.elim
  | cons c cs =>
    rw [h] at hw
    have hword : ScansTo Boundary l (c :: cs) [wordToken (c :: cs) l] := word hw.1 hw.2
    have hx : String.ofList (c :: cs) = x := by rw [← h, String.ofList_toList]
    rwa [wordToken, hx, hk] at hword

theorem keyword {w : String} {k : Kind}
    (hw : w.toList = c :: cs) (hk : Kind.keyword? w = some k) (hc : isAlphabetic c = true)
    (hcs : ∀ d ∈ cs, isAlphanumeric d = true) : ScansTo Boundary l w.toList [⟨k, none, l⟩] := by
  have hword : ScansTo Boundary l (c :: cs) [wordToken (c :: cs) l] := word hc hcs
  have hx : String.ofList (c :: cs) = w := by rw [← hw, String.ofList_toList]
  rwa [wordToken, hx, hk, ← hw] at hword

theorem number {n : Int32} (hn : 0 ≤ n.toInt) :
    ScansTo Boundary l (toString n.toInt).toList [ofNumber n l] := by
  obtain ⟨m, hm⟩ := Int.eq_ofNat_of_zero_le hn
  have htext : (toString n.toInt).toList = Nat.toDigits 10 m := by
    rw [hm]
    exact Nat.toList_repr
  have hm' : m ≤ maxLiteral := by
    have := Int32.toInt_lt n
    unfold maxLiteral
    omega
  have hval : Int32.ofNat m = n := by
    apply Int32.toInt_inj.1
    rw [Int32.toInt_ofNat_of_lt (by unfold maxLiteral at hm'; omega), hm]
  obtain ⟨d, ds, hds⟩ := List.exists_cons_of_ne_nil (Nat.toDigits_ne_nil (n := m) (b := 10))
  have hdig : ∀ e ∈ d :: ds, isDigit e = true := fun e he =>
    isDigit_of_mem_toDigits (hds ▸ he)
  have hvalue : boundedValue (maxLiteral + 1) (d :: ds) = m := by
    rw [boundedValue_eq, ← hds]
    have : digitsValue (Nat.toDigits 10 m) = m := Nat.ofDigitChars_ten_toDigits
    omega
  rw [htext, hds]
  intro rest hr
  have hx : readLexeme l d (ds ++ rest) = .ok ⟨ofNumber n l, d :: ds, rest⟩ := by
    have hds' : ∀ e ∈ ds, isDigit e = true := fun e he => hdig e (List.mem_cons_of_mem d he)
    rw [readLexeme, if_pos (hdig d List.mem_cons_self), readNumber]
    simp only [List.takeWhile_append_of_pos hds', List.dropWhile_append_of_pos hds',
      takeWhile_of_boundary hr (fun _ h => isAlphanumeric_of_isDigit h),
      dropWhile_of_boundary hr (fun _ h => isAlphanumeric_of_isDigit h), List.append_nil,
      hvalue, hval]
    rw [if_pos hm']
  rw [List.cons_append, scanFrom_lexeme (isBlank_of_isDigit (hdig d List.mem_cons_self)) hx]
  rfl

end ScansTo

end LangFront.Token
