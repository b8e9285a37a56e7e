import LangFront.Proofs.Rendering
import LangFront.Proofs.ProgramParse
import LangFront.Proofs.Printing
import LangFront.Proofs.Invariants
import LangFront.Source
/-!
# Formatting and reading back

A program comes back unchanged from its formatted text, at every indentation width, exactly
when it is well formed (`Program.ofSource_format_eq_ok_iff`). One way, the text of a well-formed
program scans to tokens that derive it (`Program.scan_render`) and the reader accepts every
derivation. The other way, the tokens of a text are ones the scanner makes, and a derivation
over such tokens yields a well-formed program.

So whatever the reader returns can be printed and read again
(`Program.reader_results_read_back`): from any tokens its declarations have initial values and
its expressions keep within the height bound, and from a text its names and literals are also
spelled as the scanner reads them.
-/

namespace LangFront

open Token Grammar Parse

theorem takeWhile_scanned {ts : List Token} {l : Location} (h : ∀ t ∈ ts, t.isEnd = false) :
    (ts ++ [endOfFile l]).takeWhile (fun t => !t.isEnd) = ts := by
  rw [List.takeWhile_append_of_pos (by simpa using h)]
  simp [endOfFile, Token.isEnd]

theorem Program.ofSource_eq_ok {s : String} {t : Program} (h : Program.ofSource s = .ok t) :
    ∃ ts, scan s = .ok ts ∧ Program.ofTokens ts = .ok t := by
  unfold Program.ofSource at h
  cases hs : scan s with
  | error e => simp only [hs, reduceCtorEq] at h
  | ok ts =>
    cases ht : Program.ofTokens ts with
    | error e => simp only [hs, ht, reduceCtorEq] at h
    | ok t' =>
      simp only [hs, ht, Except.ok.injEq] at h
      exact ⟨ts, rfl, h ▸ ht⟩

theorem Program.phrase_of_ofSource {s : String} {t : Program} (h : Program.ofSource s = .ok t) :
    ∃ u, ProgramPhrase Limits.parser t u ∧ ∀ tk ∈ u, Lexical tk := by
  obtain ⟨ts, hs, ht⟩ := Program.ofSource_eq_ok h
  obtain ⟨ts', l, rfl, hts'⟩ := scan_lexical hs
  have hp := Program.phrase_of_ofTokens ht
  rw [takeWhile_scanned fun t ht => (hts' t ht).1] at hp
  exact ⟨ts', hp, fun t ht => (hts' t ht).2⟩

/-- Every program read from a text is well formed. -/
theorem Program.wellFormed_of_ofSource {s : String} {t : Program}
    (h : Program.ofSource s = .ok t) : t.WellFormed := by
  obtain ⟨u, hp, hu⟩ := Program.phrase_of_ofSource h
  exact hp.wellFormed hu

/-- A well-formed program is read back from its rendering. -/
theorem Program.ofSource_render {t : Program} (ht : t.WellFormed) (w : Nat) :
    Program.ofSource (t.render w) = .ok t := by
  obtain ⟨ts, l, hs, hp⟩ := Program.scan_render ht w
  obtain ⟨ts', l', heq, hts'⟩ := scan_lexical hs
  have hts : ts = ts' := (List.append_inj' heq rfl).1
  have hread : Program.ofTokens (ts ++ [endOfFile l]) = .ok t := by
    apply Program.ofTokens_of_phrase
    rw [takeWhile_scanned fun t ht => (hts' t (hts ▸ ht)).1]
    exact hp
  simp only [Program.ofSource, hs, hread]

/-- A well-formed program is read back from its formatted text, whatever the options. -/
theorem Program.ofSource_format {t : Program} (ht : t.WellFormed) (opts : FormatOptions) :
    Program.ofSource (t.format opts) = .ok t := by
  rw [Program.format_eq_render]
  exact Program.ofSource_render ht opts.indentWidth

/-- A program comes back from its formatted text, at any indentation width, exactly when it is
well formed. -/
theorem Program.ofSource_format_eq_ok_iff (t : Program) (w : Nat) :
    Program.ofSource (t.format ⟨w⟩) = .ok t ↔ t.WellFormed :=
  ⟨Program.wellFormed_of_ofSource, fun ht => Program.ofSource_format ht ⟨w⟩⟩

/-- What the reader returns can be printed and read again. From any tokens, every declaration
has its initial value and no expression is taller than the bound; from a text, every name is
a name token and every literal lies within the scanner's range as well. So a program read from
a text comes back from its formatted text at every width, and its text under the default
options is stable. -/
theorem Program.reader_results_read_back :
    (∀ ts t, Program.ofTokens ts = .ok t →
      (∀ x ty, Node.stmt (.decl x ty none) ∉ t.preorder) ∧
        ∀ e, Node.expr e ∈ t.preorder → e.height ≤ maxHeight) ∧
    (∀ s t, Program.ofSource s = .ok t →
      (∀ x, Node.name x ∈ t.preorder ∨ Node.expr (.var x) ∈ t.preorder → IsName x) ∧
        ∀ n, Node.expr (.lit n) ∈ t.preorder → 0 ≤ n.toInt ∧ n.toInt ≤ maxLiteral) ∧
    (∀ s t, Program.ofSource s = .ok t → ∀ w, Program.ofSource (t.format ⟨w⟩) = .ok t) ∧
    (∀ s t, Program.ofSource s = .ok t →
      (Program.ofSource (t.format {})).map (Program.format {}) = .ok (t.format {})) := by
  refine ⟨?tokens, ?text, ?again, ?stable⟩
  case tokens =>
    intro ts t h
    have hb := Program.preorder_bounded (Program.phrase_of_ofTokens h).bounded
    exact ⟨fun x ty hmem => hb _ hmem, fun e hmem => hb _ hmem⟩
  case text =>
    intro s t h
    have hs := Program.preorder_spelled (Program.wellFormed_of_ofSource h)
    exact ⟨fun x hx => hx.elim (fun h => hs _ h) (fun h => hs _ h), fun n hmem => hs _ hmem⟩
  case again =>
    intro s t h w
    exact Program.ofSource_format (Program.wellFormed_of_ofSource h) ⟨w⟩
  case stable =>
    intro s t h
    rw [Program.ofSource_format (Program.wellFormed_of_ofSource h) {}]
    rfl

theorem reader_results_read_back_sample :
    Program.ofSource "function f(a: int): int \x7b\n  return a * (a - 1);\n\x7d\n" =
        .ok ⟨[⟨"f", [⟨"a", "int"⟩], "int",
          [.ret (.bin .mul (.var "a") (.bin .sub (.var "a") (.lit 1)))]⟩]⟩ ∧
      Program.ofSource (Program.format ⟨8⟩ ⟨[⟨"f", [⟨"a", "int"⟩], "int",
          [.ret (.bin .mul (.var "a") (.bin .sub (.var "a") (.lit 1)))]⟩]⟩) =
        .ok ⟨[⟨"f", [⟨"a", "int"⟩], "int",
          [.ret (.bin .mul (.var "a") (.bin .sub (.var "a") (.lit 1)))]⟩]⟩ := by
  have h : Program.ofSource "function f(a: int): int \x7b\n  return a * (a - 1);\n\x7d\n" =
      .ok ⟨[⟨"f", [⟨"a", "int"⟩], "int",
        [.ret (.bin .mul (.var "a") (.bin .sub (.var "a") (.lit 1)))]⟩]⟩ := by
    cbv
  exact ⟨h, Program.reader_results_read_back.2.2.1 _ _ h 8⟩

end LangFront
