import LoxCalc.Proofs.Token.Segmentation

/-!
# LoxCalc.Proofs.Token.LineNumbers — every token and error lies on the line on which it ends

`Segment.located` lists the segments of a text with what stands before each of them.  A token is on the line of its last
character, a stray character on its own line, an open string on the last line (`scan_lineNumbers`): every line end is
counted once, wherever it stands.  So lines never decrease, neither along the tokens nor along the errors.
-/

namespace LoxCalc

namespace Segment

/-- Consecutive segments, each with the text before it. -/
def located (before : List Char) : List Segment → List (List Char × Segment)
  | [] => []
  | s :: segs => (before, s) :: located (before ++ s.text) segs

/-- The token of a segment, on the line on which it ends. -/
def tokenAfter (before : List Char) (s : Segment) : Option Token :=
  s.token?.map fun c => ⟨c.1, c.2.1, c.2.2, 1 + (before ++ s.text).count '\n'⟩

/-- The error of a segment of a text: a stray character on its line, an open string on the last line. -/
def errorAfter (text before : List Char) (s : Segment) : Option LexicalError :=
  match s.sort with
  | .stray c => some ⟨1 + before.count '\n', (LexicalCause.unexpectedCharacter c).message⟩
  | .openString => some ⟨1 + text.count '\n', LexicalCause.unterminatedString.message⟩
  | _ => none

/-- What stands before a segment, the segment and something behind it are the text. -/
theorem exists_after_of_mem_located {segs : List Segment} : ∀ {before : List Char} {p : List Char × Segment},
    p ∈ located before segs → ∃ after, before ++ segs.flatMap Segment.text = p.1 ++ p.2.text ++ after := by
  induction segs with
  | nil =>
    intro before p hp
    cases hp
  | cons s segs ih =>
    intro before p hp
    rcases List.mem_cons.1 hp with rfl | hp
    · exact ⟨segs.flatMap Segment.text, by simp⟩
    · obtain ⟨after, hafter⟩ := ih hp
      exact ⟨after, by rw [← hafter, List.flatMap_cons, List.append_assoc]⟩

/-- A stray character is all of its segment and no line end. -/
theorem Matches.text_of_stray {s : Segment} {c : Char} (h : s.Matches) (hs : s.sort = .stray c) :
    s.text = [c] ∧ c ≠ '\n' := by
  rcases h with h | ⟨d, rfl, hno⟩
  · rw [hs] at h
    cases h
  · obtain rfl : d = c := by simpa using hs
    refine ⟨rfl, ?_⟩
    rintro rfl
    exact hno .blank [] (.blank (by simp))

end Segment

namespace Scan

open Segment

/-! ## Lines of tokens and errors -/

theorem tokens_ofSegments_located (segs : List Segment) : ∀ before : List Char,
    (ofSegments (lineAfter 1 before) segs).tokens = (located before segs).filterMap (fun p => tokenAfter p.1 p.2) ++
      [.eof (1 + (before ++ segs.flatMap Segment.text).count '\n')] := by
  induction segs with
  | nil =>
    intro before
    simp [ofSegments, located, lineAfter]
  | cons s segs ih =>
    intro before
    obtain ⟨sort, text⟩ := s
    rw [ofSegments, ← lineAfter_append, located, List.flatMap_cons, ← List.append_assoc, List.filterMap_cons]
    cases sort with
    | token kind literal => exact congrArg (List.cons _) (ih (before ++ text))
    | _ => exact ih (before ++ text)

theorem errors_ofSegments_located {cs : List Char} {segs : List Segment} (h : IsSegmentation cs segs) :
    ∀ before : List Char, (ofSegments (lineAfter 1 before) segs).errors =
      (located before segs).filterMap fun p => errorAfter (before ++ cs) p.1 p.2 := by
  induction h with
  | nil =>
    intro before
    rfl
  | @cons s rest segs hs _ ih =>
    intro before
    have ih := ih (before ++ s.text)
    rw [List.append_assoc] at ih
    rw [ofSegments, ← lineAfter_append, located, List.filterMap_cons, ← ih]
    cases hsort : s.sort with
    | stray c =>
      obtain ⟨htext, hc⟩ := hs.isMatch.text_of_stray hsort
      have hline : lineAfter 1 (before ++ s.text) = 1 + before.count '\n' := by
        simp [lineAfter, htext, hc]
      simp [report, errorAfter, hsort, hline]
    | openString =>
      -- nothing stands behind an open string
      obtain rfl := hs.eq_nil_of_openString hsort
      simp [report, errorAfter, hsort, lineAfter]
    | _ => simp [report, errorAfter, hsort]

/-! ## Lines never decrease -/

theorem line_le_lineAfter (line : Nat) (text : List Char) : line ≤ lineAfter line text := Nat.le_add_right _ _

/-- Nothing lies above the line on which the segments begin. -/
theorem le_line_ofSegments (segs : List Segment) : ∀ line : Nat,
    (∀ l ∈ (ofSegments line segs).tokens.map Token.line, line ≤ l) ∧
      ∀ l ∈ (ofSegments line segs).errors.map LexicalError.line, line ≤ l := by
  induction segs with
  | nil =>
    intro line
    simp [ofSegments, Token.eof]
  | cons s segs ih =>
    intro line
    obtain ⟨htokens, herrors⟩ := ih (lineAfter line s.text)
    have hline := line_le_lineAfter line s.text
    have htokens' := fun l hl => Nat.le_trans hline (htokens l hl)
    have herrors' := fun l hl => Nat.le_trans hline (herrors l hl)
    rw [ofSegments, report]
    cases s.sort with
    | token kind literal => exact ⟨List.forall_mem_cons.2 ⟨hline, htokens'⟩, herrors'⟩
    | openString => exact ⟨htokens', List.forall_mem_cons.2 ⟨hline, herrors'⟩⟩
    | stray c => exact ⟨htokens', List.forall_mem_cons.2 ⟨hline, herrors'⟩⟩
    | _ => exact ⟨htokens', herrors'⟩

theorem lines_pairwise (segs : List Segment) : ∀ line : Nat,
    ((ofSegments line segs).tokens.map Token.line).Pairwise (· ≤ ·) ∧
      ((ofSegments line segs).errors.map LexicalError.line).Pairwise (· ≤ ·) := by
  induction segs with
  | nil =>
    intro line
    simp [ofSegments]
  | cons s segs ih =>
    intro line
    obtain ⟨htokens, herrors⟩ := ih (lineAfter line s.text)
    obtain ⟨hletokens, hleerrors⟩ := le_line_ofSegments segs (lineAfter line s.text)
    rw [ofSegments, report]
    cases s.sort with
    | token kind literal => exact ⟨.cons hletokens htokens, herrors⟩
    | openString => exact ⟨htokens, .cons hleerrors herrors⟩
    | stray c => exact ⟨htokens, .cons hleerrors herrors⟩
    | _ => exact ⟨htokens, herrors⟩

end Scan

/-- **Lines are exact.**  A text is cut into segments in one way only.  Each token is on the line on which its segment
ends, and the end on the last line; a stray character is reported on its line, an open string on the last line.  So
lines never decrease. -/
theorem scan_lineNumbers (source : String) : ∃ segs : List Segment,
    (∀ segs', Segment.IsSegmentation source.toList segs' ↔ segs' = segs) ∧
    (∀ p ∈ Segment.located [] segs, ∃ after, source.toList = p.1 ++ p.2.text ++ after) ∧
    (scan source).tokens = (Segment.located [] segs).filterMap (fun p => p.2.tokenAfter p.1) ++
      [.eof (1 + source.toList.count '\n')] ∧
    (scan source).errors = (Segment.located [] segs).filterMap (fun p => p.2.errorAfter source.toList p.1) ∧
    ((scan source).tokens.map Token.line).Pairwise (· ≤ ·) ∧
    ((scan source).errors.map LexicalError.line).Pairwise (· ≤ ·) := by
  have htext : (Segment.ofText source.toList).flatMap Segment.text = source.toList := Segment.flatMap_text_ofText _
  refine ⟨Segment.ofText source.toList, fun _ => Segment.isSegmentation_iff, ?_, ?_,
    Scan.errors_ofSegments_located (Segment.isSegmentation_ofText _) [], Scan.lines_pairwise _ 1⟩
  · intro p hp
    obtain ⟨after, hafter⟩ := Segment.exists_after_of_mem_located hp
    exact ⟨after, by rw [← hafter, htext, List.nil_append]⟩
  · have htokens := Scan.tokens_ofSegments_located (Segment.ofText source.toList) []
    rw [List.nil_append, htext] at htokens
    exact htokens

/-- A comment that holds a quote, a string over two lines, and a string left open over two more. -/
example : ((scan "// \"\n\"a\nb\" @ \"c\n\n").tokens.map Token.line, (scan "// \"\n\"a\nb\" @ \"c\n\n").errors) =
    ([3, 5], [⟨3, "Unexpected character: @"⟩, ⟨5, "Unterminated string"⟩]) := by
  decide +kernel

end LoxCalc
