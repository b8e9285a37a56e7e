import LangFront.Proofs.RoundTrip
import LangFront.Proofs.Nesting
/-!
# How deep the printed form of an expression nests

The printer puts every operand that is an operator application in parentheses. Read back, each
level of a tree then costs at most two nested readings: a parenthesised left operand opens one,
a parenthesised right operand two (the right operand and its parentheses), and a right operand
that is a leaf one. So the printed text of a well-formed expression of height `h`, read as a
statement's value, never lies inside more than `max 1 (2 * h)` readings, and reading it computes
the height `h` (`Expr.printed_reading_depth`). Started with `d` readings already open, the
parser reads it back whenever `d + max 1 (2 * h) ≤ maxOpen`; as `maxOpen = 2 * maxHeight + 1`,
every height the parser allows is read back from depth zero with one reading to spare.

Names are printed as they are, and a name spelt with parentheses prints as nested parentheses.
So the bound holds of expressions whose names are name tokens and no further: a name made of 513
opening parentheses, a letter and 513 closing ones labels a tree of height zero whose printed
text is refused as nested too deeply (`Expr.printed_name_too_deep`).
-/

namespace LangFront

open Token Grammar Parse Stream

/-! ## Reading a value back -/

theorem toList_ofList_semicolon {ts : List Token} {l : Location} (hts : ∀ t ∈ ts, t.isEnd = false) :
    (ofList (ts ++ [⟨.semicolon, none, l⟩, endOfFile (l.next ';')])).toList =
      ts ++ [⟨.semicolon, none, l⟩, endOfFile (l.next ';')] := by
  have hsemi : ∀ t ∈ ts ++ [(⟨.semicolon, none, l⟩ : Token)], t.isEnd = false := by
    intro t ht
    rcases List.mem_append.1 ht with ht | ht
    · exact hts t ht
    · rw [List.mem_singleton.1 ht]
      rfl
  have hahead : (ofList (ts ++ [⟨.semicolon, none, l⟩, endOfFile (l.next ';')])).ahead =
      ts ++ [⟨.semicolon, none, l⟩] := by
    have hsplit : ts ++ [(⟨.semicolon, none, l⟩ : Token), endOfFile (l.next ';')] =
        (ts ++ [⟨.semicolon, none, l⟩]) ++ [endOfFile (l.next ';')] := by simp
    show (ts ++ [_, _]).takeWhile _ = _
    rw [hsplit]
    exact takeWhile_scanned hsemi
  have hsentinel : (ofList (ts ++ [⟨.semicolon, none, l⟩, endOfFile (l.next ';')])).sentinel =
      endOfFile (l.next ';') := by
    show sentinelOf _ = _
    rw [sentinelOf, List.find?_append, List.find?_eq_none.2 fun t ht => by simpa using hts t ht]
    rfl
  rw [toList, hahead, hsentinel]
  simp

theorem expr_of_derives_semicolon {m d : Nat} {e : Expr} {ts : List Token} {l : Location}
    (hd : Derives m .expr 1 e ts) (hts : ∀ t ∈ ts, t.isEnd = false) (hm : d + m ≤ maxOpen)
    (hh : e.height ≤ maxHeight) :
    ∃ r, expr d 0 (ofList (ts ++ [⟨.semicolon, none, l⟩, endOfFile (l.next ';')])) =
        .ok (some (e, e.height, r)) ∧
      r.val.toList = [⟨.semicolon, none, l⟩, endOfFile (l.next ';')] := by
  have hd' : Derives maxOpen .expr (d + 1) e ts := by
    have hshift := hd.shift d
    rw [Nat.add_comm 1 d] at hshift
    exact hshift.mono (by omega)
  have hlist := toList_ofList_semicolon (l := l) hts
  obtain ⟨s', hr, hs'⟩ := Reads.of_ahead_eq (s := ofList (ts ++ [⟨.semicolon, none, l⟩,
    endOfFile (l.next ';')])) (u := ts) (v := [⟨.semicolon, none, l⟩]) (by
      have := congrArg List.dropLast hlist
      simpa [toList] using this)
  have hrest : s'.toList = [⟨.semicolon, none, l⟩, endOfFile (l.next ';')] := by
    have := hr.toList_eq
    rw [hlist] at this
    exact (List.append_cancel_left this).symm
  have hstop : Stops 0 s'.current := by
    apply stops_of_kind
    simp [current, hs']
    rfl
  obtain ⟨r, hx, hrv⟩ := expr_complete hd' hr hstop hh
  exact ⟨r, hx, hrv ▸ hrest⟩

theorem Expr.scan_render_semicolon {e : Expr} (he : e.WellFormed) :
    ∃ ts l, scan (e.render ++ ";") = .ok (ts ++ [⟨.semicolon, none, l⟩, endOfFile (l.next ';')]) ∧
      (∀ t ∈ ts, t.isEnd = false) ∧ Derives (max 1 (2 * e.height)) .expr 1 e ts := by
  obtain ⟨ts, hs, hd⟩ := Expr.scansWithin (max 1 (2 * e.height)) he 1 Location.start (by omega)
  have hsemi : ScansTo (fun _ => True) Location.start (e.render.toList ++ [';'])
      (ts ++ [⟨.semicolon, none, Location.start.advance e.render.toList⟩]) :=
    hs.append (ScansTo.symbol rfl (fun d => by simp [pairSymbol?]) (ScansTo.nil _))
      fun _ _ => Boundary.cons (by decide) (by decide)
  have hscan : scan (e.render ++ ";") = .ok (ts ++
      [⟨.semicolon, none, Location.start.advance e.render.toList⟩,
        endOfFile ((Location.start.advance e.render.toList).next ';')]) := by
    have := hsemi.scanFrom_eq trivial
    rw [Location.advance_append] at this
    simpa [scan, String.toList_append] using this
  refine ⟨ts, _, hscan, fun t ht => ?_, hd⟩
  obtain ⟨us, l', heq, hus⟩ := scan_lexical hscan
  have heq' : (ts ++ [⟨.semicolon, none, Location.start.advance e.render.toList⟩]) ++
      [endOfFile ((Location.start.advance e.render.toList).next ';')] = us ++ [endOfFile l'] := by
    rw [List.append_assoc]
    exact heq
  have hsplit := (List.append_inj' heq' rfl).1
  exact (hus t (hsplit ▸ List.mem_append_left _ ht)).1

/-- The printed text of a well-formed expression of height `h`, followed by a semicolon, scans
to tokens that derive the expression with no point inside more than `max 1 (2 * h)` readings,
then the semicolon and the end token. A reading started with `d` readings open, for every `d`
with `d + max 1 (2 * h) ≤ maxOpen`, reads the tokens back as the expression with its height `h`,
up to the semicolon. In particular it does so from depth zero whenever `h ≤ maxHeight`: neither
the bound on open readings nor the bound on height refuses it. -/
theorem Expr.printed_reading_depth (e : Expr) (he : e.WellFormed) :
    ∃ ts rest, scan (e.render ++ ";") = .ok (ts ++ rest) ∧
      rest.map Token.kind = [.semicolon, .endOfFile] ∧
      Derives (max 1 (2 * e.height)) .expr 1 e ts ∧
      (∀ d, d + max 1 (2 * e.height) ≤ maxOpen →
        ∃ r, expr d 0 (ofList (ts ++ rest)) = .ok (some (e, e.height, r)) ∧ r.val.toList = rest) ∧
      (e.height ≤ maxHeight →
        ∃ r, expr 0 0 (ofList (ts ++ rest)) = .ok (some (e, e.height, r))) := by
  obtain ⟨ts, l, hscan, hts, hd⟩ := Expr.scan_render_semicolon he
  have hread : ∀ d, d + max 1 (2 * e.height) ≤ maxOpen →
      ∃ r, expr d 0 (ofList (ts ++ [⟨.semicolon, none, l⟩, endOfFile (l.next ';')])) =
          .ok (some (e, e.height, r)) ∧
        r.val.toList = [⟨.semicolon, none, l⟩, endOfFile (l.next ';')] := by
    intro d hdm
    -- twice the height fits under the bound on open readings, so the height is allowed too
    have hh : e.height ≤ maxHeight := by
      unfold maxOpen at hdm
      unfold maxHeight
      omega
    exact expr_of_derives_semicolon hd hts hdm hh
  refine ⟨ts, _, hscan, rfl, hd, hread, fun hh => ?_⟩
  obtain ⟨r, hx, -⟩ := hread 0 (by unfold maxHeight at hh; unfold maxOpen; omega)
  exact ⟨r, hx⟩

/-- The right-nested chain `a - (a - a)` is the deepest printed form of height two: it is read
back from every depth up to `maxOpen - 4`. -/
theorem Expr.printed_reading_depth_chain :
    (Expr.bin .sub (.var "a") (.bin .sub (.var "a") (.var "a"))).WellFormed ∧
      ∃ ts rest, scan ((Expr.bin .sub (.var "a") (.bin .sub (.var "a") (.var "a"))).render ++ ";") =
          .ok (ts ++ rest) ∧
        rest.map Token.kind = [.semicolon, .endOfFile] ∧
        Derives (max 1 (2 * (Expr.bin .sub (.var "a") (.bin .sub (.var "a") (.var "a"))).height))
          .expr 1 (Expr.bin .sub (.var "a") (.bin .sub (.var "a") (.var "a"))) ts ∧
        (∀ d, d + max 1 (2 * (Expr.bin .sub (.var "a") (.bin .sub (.var "a") (.var "a"))).height) ≤
            maxOpen →
          ∃ r, expr d 0 (ofList (ts ++ rest)) =
              .ok (some (Expr.bin .sub (.var "a") (.bin .sub (.var "a") (.var "a")),
                (Expr.bin .sub (.var "a") (.bin .sub (.var "a") (.var "a"))).height, r)) ∧
            r.val.toList = rest) ∧
        ((Expr.bin .sub (.var "a") (.bin .sub (.var "a") (.var "a"))).height ≤ maxHeight →
          ∃ r, expr 0 0 (ofList (ts ++ rest)) =
            .ok (some (Expr.bin .sub (.var "a") (.bin .sub (.var "a") (.var "a")),
              (Expr.bin .sub (.var "a") (.bin .sub (.var "a") (.var "a"))).height, r))) := by
  have ha : IsName "a" := ⟨⟨rfl, by simp⟩, rfl⟩
  exact ⟨⟨ha, ha, ha⟩, Expr.printed_reading_depth _ ⟨ha, ha, ha⟩⟩

/-! ## Names are printed as they are -/

theorem scan_parenthesised_name (n : Nat) :
    ∃ ps rest, scan (String.ofList (List.replicate n '(' ++ 'a' :: List.replicate n ')') ++ ";") =
        .ok (ps ++ rest) ∧ ps.length = n ∧ ∀ p ∈ ps, p.kind = .openParen := by
  have htext : (String.ofList (List.replicate n '(' ++ 'a' :: List.replicate n ')') ++ ";").toList =
      List.replicate n '(' ++ (['a'] ++ (List.replicate n ')' ++ [';'])) := by
    simp [String.toList_append]
  have hafter : ∀ l, ∃ ts, ScansTo (fun _ => True) l (['a'] ++ (List.replicate n ')' ++ [';'])) ts := by
    intro l
    obtain ⟨qs, -, -, hclose⟩ := ScansTo.symbols (B := fun _ => True) (c := ')') rfl
      (fun d => by simp [pairSymbol?]) n (l := l.advance ['a'])
      (ScansTo.symbol (c := ';') rfl (fun d => by simp [pairSymbol?]) (ScansTo.nil _))
    refine ⟨_, (ScansTo.word (by decide) (by simp)).append hclose fun rest _ => ?_⟩
    cases n with
    | zero => exact Boundary.cons (by decide) (by decide)
    | succ n => exact Boundary.cons (by decide) (by decide)
  obtain ⟨ts, hts⟩ := hafter (Location.start.advance (List.replicate n '('))
  obtain ⟨ps, hlen, hkind, hs⟩ := ScansTo.symbols (c := '(') rfl (fun d => by simp [pairSymbol?]) n hts
  have hscan := hs.scanFrom_eq trivial
  rw [← htext, List.append_assoc] at hscan
  exact ⟨ps, _, hscan, hlen, hkind⟩

/-- Names are printed as they are. The name of 513 opening parentheses, a letter and 513 closing
ones labels a tree of height zero, yet its printed text opens 513 nested readings inside the
value's own, and reading it from depth zero is refused as nested too deeply. -/
theorem Expr.printed_name_too_deep :
    (Expr.var (String.ofList (List.replicate 513 '(' ++ 'a' :: List.replicate 513 ')'))).height ≤
        maxHeight ∧
      ∃ us, scan ((Expr.var (String.ofList (List.replicate 513 '(' ++ 'a' ::
          List.replicate 513 ')'))).render ++ ";") = .ok us ∧
        TooDeep (expr 0 0 (ofList us)) := by
  obtain ⟨ps, rest, hscan, hlen, hkind⟩ := scan_parenthesised_name 513
  refine ⟨by rw [Expr.height_var]; exact Nat.zero_le _, ps ++ rest, hscan, ?_⟩
  obtain ⟨s', hr, -⟩ := Reads.of_ahead_eq (s := ofList (ps ++ rest)) (u := ps)
    (v := rest.takeWhile fun t => !t.isEnd)
    (List.takeWhile_append_of_pos fun p hp => by simp [Token.isEnd, hkind p hp])
  exact expr_tooDeep_of_openParen_run ps 0 0 (w := []) hkind (by rw [hlen]; decide)
    (by rwa [List.append_nil])

end LangFront
