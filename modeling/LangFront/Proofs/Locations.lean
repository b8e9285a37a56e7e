import LangFront.Proofs.MaximalMunch
/-!
# Where tokens stand

The scanner moves its location on one character at a time, but where it stands can be said at
once from the text read so far (`Location.advance_start`): the offset is the number of characters
read, the line one more than the line feeds among them, and the column one more than the
characters read since the last line feed. A tab or a carriage return is one column, like any
other character.

So every token the scanner returns stands at the location computed from the text before its
offset, its lexeme starts at that offset, and the end token stands just past the text; the
offsets of the tokens increase strictly; and an error stands, in the same way, where the
character or the run of digits it reports starts (`Token.scan_locations`).
-/

namespace LangFront

namespace Location

theorem lineStart_append_singleton (p : List Char) (c : Char) :
    lineStart (p ++ [c]) = if c = '\n' then p.length + 1 else lineStart p := by
  by_cases hc : c = '\n'
  · subst hc
    simp [lineStart]
  · simp [lineStart, hc]

theorem lineStart_le (p : List Char) : lineStart p ≤ p.length := by
  have := (List.dropWhile_suffix (· != '\n') (l := p.reverse)).length_le
  simpa [lineStart] using this

theorem next_ofPrefix (p : List Char) (c : Char) : (ofPrefix p).next c = ofPrefix (p ++ [c]) := by
  have hle := lineStart_le p
  by_cases hc : c = '\n'
  · subst hc
    simp [next, ofPrefix, lineStart_append_singleton]
  · simp only [next, ofPrefix, hc, if_false, lineStart_append_singleton, List.length_append,
      List.length_singleton, List.count_append, List.count_singleton, beq_iff_eq,
      Location.mk.injEq, true_and]
    omega

theorem advance_ofPrefix (p cs : List Char) : (ofPrefix p).advance cs = ofPrefix (p ++ cs) := by
  induction cs generalizing p with
  | nil => simp
  | cons c cs ih => rw [advance_cons, next_ofPrefix, ih, List.append_assoc, List.singleton_append]

/-- Reading a text from its start ends at the location computed from the whole text. -/
theorem advance_start (p : List Char) : start.advance p = ofPrefix p :=
  advance_ofPrefix [] p

@[simp] theorem offset_advance_start (p : List Char) : (start.advance p).offset = p.length := by
  simp [start]

end Location

namespace Token

open Text

/-- `PlacedIn cs t`: the token `t` stands in the text `cs` where the scanner puts it. Its
location is the one computed from the characters before its offset; an end token stands just
past the text; any other token's lexeme starts at its offset. -/
def PlacedIn (cs : List Char) (t : Token) : Prop :=
  t.location = Location.ofPrefix (cs.take t.location.offset) ∧
    (t.kind = .endOfFile → t.location.offset = cs.length) ∧
    (t.kind ≠ .endOfFile →
      ∃ x rest, cs.drop t.location.offset = x ++ rest ∧ Munch t.location x rest t)

/-- `ErrorPlacedIn cs e`: the error `e` stands in the text `cs` where the scanner reports it: at
the location computed from the characters before its offset, where no lexeme starts. -/
def ErrorPlacedIn (cs : List Char) (e : ScanError) : Prop :=
  e.location = Location.ofPrefix (cs.take e.location.offset) ∧
    Stuck e.location (cs.drop e.location.offset) e

section Placed

variable {l : Location} {cs : List Char} {ts : List Token} {e : ScanError}

/-- The location reached after a text stands, in any longer text, at the end of that text. -/
theorem location_in_text (pre rest : List Char) (hl : Location.start.advance pre = l) :
    l = Location.ofPrefix ((pre ++ rest).take l.offset) ∧ (pre ++ rest).drop l.offset = rest := by
  subst hl
  rw [Location.offset_advance_start, List.take_left' rfl, List.drop_left' rfl]
  exact ⟨Location.advance_start pre, rfl⟩

theorem Scans.placedIn (h : Scans l cs ts) (pre : List Char)
    (hl : Location.start.advance pre = l) : ∀ t ∈ ts, PlacedIn (pre ++ cs) t := by
  induction h generalizing pre with
  | done l =>
    intro t ht
    rw [List.mem_singleton] at ht
    subst ht
    obtain ⟨hloc, -⟩ := location_in_text pre [] hl
    refine ⟨hloc, fun _ => ?_, fun hk => absurd rfl hk⟩
    rw [← hl]
    simp [endOfFile, Location.start]
  | @blank l c cs ts _ _ ih =>
    intro t ht
    have := ih (pre ++ [c]) (by rw [Location.advance_append, hl]; rfl) t ht
    rwa [List.append_assoc, List.singleton_append] at this
  | @lexeme l x rest t ts hm _ ih =>
    intro t' ht'
    rcases List.mem_cons.1 ht' with rfl | ht'
    · obtain ⟨hloc, hkind⟩ := hm.token
      obtain ⟨hat, hdrop⟩ := location_in_text pre (x ++ rest) hl
      refine ⟨hloc ▸ hat, fun hk => absurd hk hkind, fun _ => ⟨x, rest, ?_, hloc ▸ hm⟩⟩
      rw [hloc, hdrop]
    · have := ih (pre ++ x) (by rw [Location.advance_append, hl]) t' ht'
      rwa [List.append_assoc] at this

theorem Scans.offset_le (h : Scans l cs ts) : ∀ t ∈ ts, l.offset ≤ t.location.offset := by
  induction h with
  | done l => simp [endOfFile]
  | blank _ _ ih =>
    intro t ht
    have := ih t ht
    simp only [Location.offset_next] at this
    omega
  | @lexeme l x rest t ts hm _ ih =>
    intro t' ht'
    rcases List.mem_cons.1 ht' with rfl | ht'
    · simp [hm.token.1]
    · have := ih t' ht'
      simp only [Location.offset_advance] at this
      omega

/-- The offsets of a scanned text's tokens increase strictly: each lexeme is read after the one
before it, and no lexeme is empty. -/
theorem Scans.offsets_increase (h : Scans l cs ts) :
    (ts.map fun t => t.location.offset).Pairwise (· < ·) := by
  induction h with
  | done l => simp
  | blank _ _ ih => exact ih
  | @lexeme l x rest t ts hm hrest ih =>
    refine List.Pairwise.cons (fun n hn => ?_) ih
    obtain ⟨t', ht', rfl⟩ := List.mem_map.1 hn
    obtain ⟨c, x', rfl, -⟩ := hm.head
    have := hrest.offset_le t' ht'
    simp only [Location.offset_advance, List.length_cons] at this
    show t.location.offset < t'.location.offset
    rw [hm.token.1]
    omega

theorem Refused.placedIn (h : Refused l cs e) (pre : List Char)
    (hl : Location.start.advance pre = l) : ErrorPlacedIn (pre ++ cs) e := by
  induction h generalizing pre with
  | @blank l c cs e _ _ ih =>
    have := ih (pre ++ [c]) (by rw [Location.advance_append, hl]; rfl)
    rwa [List.append_assoc, List.singleton_append] at this
  | @lexeme l x rest t e _ _ ih =>
    have := ih (pre ++ x) (by rw [Location.advance_append, hl])
    rwa [List.append_assoc] at this
  | @stuck l cs e hs =>
    have hloc : e.location = l := by
      cases hs <;> rfl
    obtain ⟨hat, hdrop⟩ := location_in_text pre cs hl
    exact ⟨hloc ▸ hat, by rw [hloc, hdrop]; exact hloc ▸ hs⟩

end Placed

/-- Locations agree with offsets. Every token the scanner returns, the end token included, stands
at the location computed from the characters before its offset: its line is one more than the
line feeds before it and its column one more than the characters since the last of them. Each
token's lexeme starts at its offset, the end token stands just past the text, and the offsets
increase strictly. An error stands in the same way where the character or the run of digits it
reports starts. -/
theorem scan_locations (s : String) :
    (∀ ts, scan s = .ok ts →
      (∀ t ∈ ts, PlacedIn s.toList t) ∧ (ts.map fun t => t.location.offset).Pairwise (· < ·)) ∧
      ∀ e, scan s = .error e → ErrorPlacedIn s.toList e := by
  refine ⟨fun ts h => ?_, fun e h => ?_⟩
  · have hs := scanFrom_eq_ok_iff.1 h
    exact ⟨hs.placedIn [] rfl, hs.offsets_increase⟩
  · exact (scanFrom_eq_error_iff.1 h).placedIn [] rfl

/-- A tab is one column: in `x`, line feed, tab, `7`, the number stands on line two, column
two, and the end just after it. -/
theorem scan_locations_tab :
    scan "x\n\t7" = .ok [ofName "x" ⟨0, 1, 1⟩, ofNumber 7 ⟨3, 2, 2⟩, endOfFile ⟨4, 2, 3⟩] ∧
      (∀ t ∈ [ofName "x" ⟨0, 1, 1⟩, ofNumber 7 ⟨3, 2, 2⟩, endOfFile ⟨4, 2, 3⟩],
        PlacedIn "x\n\t7".toList t) ∧
      ([ofName "x" ⟨0, 1, 1⟩, ofNumber 7 ⟨3, 2, 2⟩, endOfFile ⟨4, 2, 3⟩].map
        fun t => t.location.offset).Pairwise (· < ·) := by
  have h : scan "x\n\t7" = .ok [ofName "x" ⟨0, 1, 1⟩, ofNumber 7 ⟨3, 2, 2⟩,
      endOfFile ⟨4, 2, 3⟩] := by
    cbv
  exact ⟨h, (scan_locations _).1 _ h⟩

end Token

end LangFront
