import LangFront.Token.Munch
import LangFront.Proofs.Lexing
/-!
# The scanner reads longest lexemes

`Token.scanFrom` returns tokens exactly when its text is blanks and longest lexemes to its end,
and then they are the tokens of those lexemes followed by the end token
(`Token.scanFrom_eq_ok_iff`). It fails exactly when the text is so up to a place where no lexeme
starts, with the error that reports that place (`Token.scanFrom_eq_error_iff`).

The scanner's loop is one step per blank or lexeme, so both facts come from one fact about the
reader of one lexeme, `readLexeme`: it returns a lexeme exactly when the text starts with a
longest one (`Token.readLexeme_eq_ok_iff`), and an error exactly when no lexeme starts there
(`Token.readLexeme_eq_error_iff`). A run read with `takeWhile` is the run of the description
because the character after it is not of the run's class (`Token.takeWhile_run`).
-/

namespace LangFront.Token

open Text

/-! ## Runs of a class of characters -/

section Runs

variable {p : Char → Bool} {xs rest : List Char}

/-- A run of characters of a class, with no character of the class after it, is what
`takeWhile` reads. -/
theorem takeWhile_run (hx : ∀ c ∈ xs, p c = true) (hr : ∀ c ∈ rest.head?, p c = false) :
    (xs ++ rest).takeWhile p = xs := by
  rw [List.takeWhile_append_of_pos hx]
  cases rest with
  | nil => simp
  | cons c cs => simp [hr c rfl]

theorem dropWhile_run (hx : ∀ c ∈ xs, p c = true) (hr : ∀ c ∈ rest.head?, p c = false) :
    (xs ++ rest).dropWhile p = rest := by
  rw [List.dropWhile_append_of_pos hx]
  cases rest with
  | nil => rfl
  | cons c cs => simp [hr c rfl]

theorem forall_mem_takeWhile (cs : List Char) : ∀ c ∈ cs.takeWhile p, p c = true := by
  intro c hc
  simpa using List.all_eq_true.1 List.all_takeWhile c hc

theorem forall_mem_cons_takeWhile {c : Char} (hc : p c = true) (cs : List Char) :
    ∀ d ∈ c :: cs.takeWhile p, p d = true := by
  intro d hd
  rcases List.mem_cons.1 hd with rfl | hd
  · exact hc
  · exact forall_mem_takeWhile cs d hd

theorem forall_mem_head?_dropWhile (cs : List Char) :
    ∀ c ∈ (cs.dropWhile p).head?, p c = false := by
  induction cs with
  | nil => simp
  | cons d ds ih =>
    cases hd : p d
    · simp [hd]
    · simpa [List.dropWhile_cons, hd] using ih

end Runs

/-! ## One lexeme -/

theorem pairSymbol?_class {c d : Char} {k : Kind} (h : pairSymbol? c d = some k) :
    isBlank c = false ∧ isDigit c = false ∧ isAlphabetic c = false := by
  unfold pairSymbol? at h
  split at h <;> cases h <;> decide

section Reader

variable {l : Location} {c : Char} {cs x rest : List Char} {t : Token}

theorem readNumber_munch (hc : isDigit c = true) (h : readNumber l c cs = .ok ⟨t, x, rest⟩) :
    x ++ rest = c :: cs ∧ Munch l x rest t := by
  unfold readNumber at h
  split at h
  · rename_i hv
    cases h
    have hval : boundedValue (maxLiteral + 1) (c :: cs.takeWhile isDigit) =
        digitsValue (c :: cs.takeWhile isDigit) := by
      rw [boundedValue_eq] at hv ⊢
      omega
    rw [hval] at hv ⊢
    exact ⟨by simp [List.takeWhile_append_dropWhile], .number (List.cons_ne_nil _ _)
      (forall_mem_cons_takeWhile hc cs) (forall_mem_head?_dropWhile cs) hv⟩
  · cases h

theorem readWord_munch (hc : isAlphabetic c = true) (h : readWord l c cs = ⟨t, x, rest⟩) :
    x ++ rest = c :: cs ∧ Munch l x rest t := by
  cases h
  refine ⟨by simp [List.takeWhile_append_dropWhile], ?_⟩
  unfold wordToken
  split
  · rename_i k hk
    exact .keyword hc (forall_mem_takeWhile cs) (forall_mem_head?_dropWhile cs) hk
  · rename_i hk
    exact .name hc (forall_mem_takeWhile cs) (forall_mem_head?_dropWhile cs) hk

theorem readSingle_munch (hp : ∀ d ∈ cs.head?, pairSymbol? c d = none)
    (h : readSingle l c cs = .ok ⟨t, x, rest⟩) : x ++ rest = c :: cs ∧ Munch l x rest t := by
  unfold readSingle at h
  split at h
  · rename_i k hk
    cases h
    exact ⟨rfl, .single hk hp⟩
  · cases h

theorem readSymbol_munch (h : readSymbol l c cs = .ok ⟨t, x, rest⟩) :
    x ++ rest = c :: cs ∧ Munch l x rest t := by
  cases cs with
  | nil => exact readSingle_munch (by simp) h
  | cons d ds =>
    simp only [readSymbol] at h
    split at h
    · rename_i k hk
      cases h
      exact ⟨rfl, .pair hk⟩
    · rename_i hk
      exact readSingle_munch (by simpa using hk) h

theorem munch_of_readLexeme (h : readLexeme l c cs = .ok ⟨t, x, rest⟩) :
    x ++ rest = c :: cs ∧ Munch l x rest t := by
  unfold readLexeme at h
  split at h
  · rename_i hd
    exact readNumber_munch hd h
  · split at h
    · rename_i ha
      exact readWord_munch ha (Except.ok.inj h)
    · exact readSymbol_munch h

theorem Munch.readLexeme_eq (hm : Munch l x rest t) (hx : x ++ rest = c :: cs) :
    readLexeme l c cs = .ok ⟨t, x, rest⟩ := by
  cases hm with
  | number hne hds hr hv =>
    obtain ⟨d, ds, rfl⟩ := List.exists_cons_of_ne_nil hne
    simp only [List.cons_append, List.cons.injEq] at hx
    obtain ⟨rfl, rfl⟩ := hx
    have hds' : ∀ e ∈ ds, isDigit e = true := fun e he => hds e (List.mem_cons_of_mem d he)
    have hval : boundedValue (maxLiteral + 1) (d :: ds) = digitsValue (d :: ds) := by
      rw [boundedValue_eq]
      omega
    rw [readLexeme, if_pos (hds d List.mem_cons_self), readNumber, takeWhile_run hds' hr,
      dropWhile_run hds' hr, hval, if_pos hv]
  | keyword hc hcs hr hk =>
    simp only [List.cons_append, List.cons.injEq] at hx
    obtain ⟨rfl, rfl⟩ := hx
    rw [readLexeme, if_neg (by simp [isDigit_of_isAlphabetic hc]), if_pos hc]
    simp only [readWord, takeWhile_run hcs hr, dropWhile_run hcs hr, wordToken, hk]
  | name hc hcs hr hk =>
    simp only [List.cons_append, List.cons.injEq] at hx
    obtain ⟨rfl, rfl⟩ := hx
    rw [readLexeme, if_neg (by simp [isDigit_of_isAlphabetic hc]), if_pos hc]
    simp only [readWord, takeWhile_run hcs hr, dropWhile_run hcs hr, wordToken, hk]
  | pair hk =>
    simp only [List.cons_append, List.cons.injEq] at hx
    obtain ⟨rfl, rfl⟩ := hx
    have hcls := pairSymbol?_class hk
    rw [readLexeme, if_neg (by simp [hcls.2.1]), if_neg (by simp [hcls.2.2])]
    simp [readSymbol, hk]
  | single hk hp =>
    simp only [List.cons_append, List.cons.injEq] at hx
    obtain ⟨rfl, rfl⟩ := hx
    exact ScansTo.readLexeme_single hk hp

/-- The reader of one lexeme returns a lexeme exactly when its text starts with a longest
lexeme. -/
theorem readLexeme_eq_ok_iff :
    readLexeme l c cs = .ok ⟨t, x, rest⟩ ↔ x ++ rest = c :: cs ∧ Munch l x rest t :=
  ⟨munch_of_readLexeme, fun ⟨hx, hm⟩ => hm.readLexeme_eq hx⟩

end Reader

section Stuck

variable {l : Location} {c : Char} {cs : List Char} {e : ScanError}

theorem readSingle_stuck (hb : isBlank c = false) (hd : isDigit c = false)
    (ha : isAlphabetic c = false) (hp : ∀ d ∈ cs.head?, pairSymbol? c d = none)
    (h : readSingle l c cs = .error e) : Stuck l (c :: cs) e := by
  unfold readSingle at h
  split at h
  · cases h
  · rename_i hk
    cases h
    exact .unexpected hb hd ha hk hp

theorem stuck_of_readLexeme (hb : isBlank c = false) (h : readLexeme l c cs = .error e) :
    Stuck l (c :: cs) e := by
  unfold readLexeme at h
  split at h
  · rename_i hd
    unfold readNumber at h
    split at h
    · cases h
    · rename_i hv
      cases h
      have hsplit : c :: cs = (c :: cs.takeWhile isDigit) ++ cs.dropWhile isDigit := by
        simp [List.takeWhile_append_dropWhile]
      rw [hsplit]
      refine .overflow (List.cons_ne_nil _ _) (forall_mem_cons_takeWhile hd cs)
        (forall_mem_head?_dropWhile cs) ?_
      rw [boundedValue_eq] at hv
      omega
  · rename_i hd
    split at h
    · cases h
    · rename_i ha
      simp only [Bool.not_eq_true] at hd ha
      cases cs with
      | nil => exact readSingle_stuck hb hd ha (by simp) h
      | cons d ds =>
        simp only [readSymbol] at h
        split at h
        · cases h
        · rename_i hk
          exact readSingle_stuck hb hd ha (by simpa using hk) h

theorem Stuck.readLexeme_eq {cs₀ : List Char} (h : Stuck l cs₀ e) :
    ∃ c cs, cs₀ = c :: cs ∧ isBlank c = false ∧ readLexeme l c cs = .error e := by
  cases h with
  | overflow hne hds hr hv =>
    rename_i ds rest
    obtain ⟨d, ds, rfl⟩ := List.exists_cons_of_ne_nil hne
    have hd := hds d List.mem_cons_self
    have hds' : ∀ e ∈ ds, isDigit e = true := fun e he => hds e (List.mem_cons_of_mem d he)
    have hbound : ¬boundedValue (maxLiteral + 1) (d :: ds) ≤ maxLiteral := by
      rw [boundedValue_eq]
      omega
    refine ⟨d, ds ++ rest, rfl, isBlank_of_isDigit hd, ?_⟩
    rw [readLexeme, if_pos hd, readNumber, takeWhile_run hds' hr, if_neg hbound]
  | unexpected hb hd ha hk hp =>
    rename_i c cs
    refine ⟨c, cs, rfl, hb, ?_⟩
    rw [readLexeme, if_neg (by simp [hd]), if_neg (by simp [ha])]
    cases cs with
    | nil => simp [readSymbol, readSingle, hk]
    | cons d ds => simp [readSymbol, hp d rfl, readSingle, hk]

/-- The reader of one lexeme fails at a character that is no blank exactly when no lexeme
starts there, with the error that says why. -/
theorem readLexeme_eq_error_iff (hb : isBlank c = false) :
    readLexeme l c cs = .error e ↔ Stuck l (c :: cs) e := by
  refine ⟨stuck_of_readLexeme hb, fun h => ?_⟩
  obtain ⟨c', cs', hcs, _, he⟩ := h.readLexeme_eq
  obtain ⟨rfl, rfl⟩ := List.cons.inj hcs
  exact he

end Stuck

/-! ## Whole texts -/

section Texts

variable {l : Location} {c : Char} {cs : List Char} {ts : List Token} {e : ScanError}

theorem scanFrom_stuck (hb : isBlank c = false) (h : readLexeme l c cs = .error e) :
    scanFrom l (c :: cs) = .error e := by
  rw [scanFrom, if_neg (by simp [hb])]
  split
  · rename_i e' he'
    rw [h] at he'
    cases he'
    rfl
  · rename_i x hx
    rw [h] at hx
    cases hx

/-- What the scanner returns is the tokens of a reading into blanks and longest lexemes, or the
error at the place where such a reading stops. -/
theorem scanFrom_sound :
    (∀ ts, scanFrom l cs = .ok ts → Scans l cs ts) ∧
      ∀ e, scanFrom l cs = .error e → Refused l cs e := by
  fun_induction scanFrom l cs with
  | case1 l =>
    refine ⟨fun ts h => ?_, fun e h => by cases h⟩
    cases h
    exact .done l
  | case2 l c cs hb ih => exact ⟨fun ts h => .blank hb (ih.1 ts h), fun e h => .blank hb (ih.2 e h)⟩
  | case3 l c cs hb e he =>
    refine ⟨fun ts h => (by cases h), fun e' h => ?_⟩
    cases h
    exact .stuck (stuck_of_readLexeme (by simpa using hb) he)
  | case4 l c cs hb x hx _ ts hts ih =>
    refine ⟨fun ts' h => ?_, fun e h => by cases h⟩
    cases h
    obtain ⟨hsplit, hm⟩ := munch_of_readLexeme hx
    rw [← hsplit]
    exact .lexeme hm (ih.1 ts hts)
  | case5 l c cs hb x hx _ e he ih =>
    refine ⟨fun ts h => (by cases h), fun e' h => ?_⟩
    cases h
    obtain ⟨hsplit, hm⟩ := munch_of_readLexeme hx
    rw [← hsplit]
    exact .lexeme hm (ih.2 e he)

theorem Munch.head {x rest : List Char} {t : Token} (hm : Munch l x rest t) :
    ∃ c x', x = c :: x' ∧ isBlank c = false := by
  cases hm with
  | number hne hds _ _ =>
    obtain ⟨d, ds, rfl⟩ := List.exists_cons_of_ne_nil hne
    exact ⟨d, ds, rfl, isBlank_of_isDigit (hds d List.mem_cons_self)⟩
  | keyword hc _ _ _ => exact ⟨_, _, rfl, isBlank_of_isAlphabetic hc⟩
  | name hc _ _ _ => exact ⟨_, _, rfl, isBlank_of_isAlphabetic hc⟩
  | pair hk => exact ⟨_, _, rfl, (pairSymbol?_class hk).1⟩
  | single hk _ => exact ⟨_, _, rfl, (singleSymbol?_class hk).1⟩

theorem Munch.token {x rest : List Char} {t : Token} (hm : Munch l x rest t) :
    t.location = l ∧ t.kind ≠ .endOfFile := by
  cases hm with
  | number => exact ⟨rfl, by simp [ofNumber]⟩
  | keyword _ _ _ hk => exact ⟨rfl, keyword?_ne_endOfFile hk⟩
  | name => exact ⟨rfl, by simp [ofName]⟩
  | pair hk => exact ⟨rfl, pairSymbol?_ne_endOfFile hk⟩
  | single hk _ => exact ⟨rfl, (singleSymbol?_class hk).2.2.2⟩

/-- Scanning a longest lexeme gives its token before the tokens of the rest. -/
theorem Munch.scanFrom_eq {x rest : List Char} {t : Token} (hm : Munch l x rest t) :
    scanFrom l (x ++ rest) = (scanFrom (l.advance x) rest).map (t :: ·) := by
  obtain ⟨c, x', rfl, hb⟩ := hm.head
  have hx : (c :: x') ++ rest = c :: (x' ++ rest) := rfl
  rw [hx, scanFrom_lexeme hb (hm.readLexeme_eq hx)]

theorem Scans.scanFrom_eq (h : Scans l cs ts) : scanFrom l cs = .ok ts := by
  induction h with
  | done l => exact scanFrom_nil l
  | blank hb _ ih => rw [scanFrom_blank hb, ih]
  | lexeme hm _ ih => rw [hm.scanFrom_eq, ih]; rfl

theorem Refused.scanFrom_eq (h : Refused l cs e) : scanFrom l cs = .error e := by
  induction h with
  | blank hb _ ih => rw [scanFrom_blank hb, ih]
  | lexeme hm _ ih => rw [hm.scanFrom_eq, ih]; rfl
  | stuck hs =>
    obtain ⟨c, cs, rfl, hb, he⟩ := hs.readLexeme_eq
    exact scanFrom_stuck hb he

theorem scanFrom_eq_ok_iff : scanFrom l cs = .ok ts ↔ Scans l cs ts :=
  ⟨scanFrom_sound.1 ts, Scans.scanFrom_eq⟩

theorem scanFrom_eq_error_iff : scanFrom l cs = .error e ↔ Refused l cs e :=
  ⟨scanFrom_sound.2 e, Refused.scanFrom_eq⟩

end Texts

/-- The scanner is maximal munch: a text scans to tokens exactly when it is blanks and longest
lexemes to its end, the tokens being those of its lexemes in order followed by one end token; and
it fails exactly when it is so up to the first place where no lexeme starts, with the error that
reports that place. -/
theorem scan_maximal_munch (s : String) :
    (∀ ts, scan s = .ok ts ↔ Scans Location.start s.toList ts) ∧
      ∀ e, scan s = .error e ↔ Refused Location.start s.toList e :=
  ⟨fun _ => scanFrom_eq_ok_iff, fun _ => scanFrom_eq_error_iff⟩

-- the longest symbol first: `===<` is `==`, `=` and `<`
example : scan "===<" = .ok [⟨.equalsEquals, none, ⟨0, 1, 1⟩⟩, ⟨.equals, none, ⟨2, 1, 3⟩⟩,
    ⟨.lessThan, none, ⟨3, 1, 4⟩⟩, endOfFile ⟨4, 1, 5⟩] := by
  cbv

-- a run of digits ends at the first letter, and a keyword must be the whole run
example : scan "12ab functions" = .ok [ofNumber 12 ⟨0, 1, 1⟩, ofName "ab" ⟨2, 1, 3⟩,
    ofName "functions" ⟨5, 1, 6⟩, endOfFile ⟨14, 1, 15⟩] := by
  cbv

end LangFront.Token
