import LoxCalc.Proofs.Token.Segmentation

/-!
# LoxCalc.Proofs.Token.LineEnds — a line end separates whatever stands before it

A segment that does not run to the end of the text because it lacks its closing quote is the same with a line end and
anything else behind it (`Segment.first_append_lineEnd`).  So a text in which no string is left open is cut in the same
way with a line end behind it (`Segment.ofText_append_lineEnd`), and what is scanned is what is scanned before the line
end and what is scanned after it, on later lines (`scan_append_lineEnd`).
-/

namespace LoxCalc

/-! ## What a line end does to a segment -/

namespace Segment

section Runs

variable {p : Char → Bool} (hp : p '\n' = false) (cs after : List Char)
include hp

theorem takeWhile_append_lineEnd : (cs ++ '\n' :: after).takeWhile p = cs.takeWhile p := by
  obtain ⟨run, rest, rfl, hrun, hrest⟩ := exists_run p cs
  rw [takeWhile_run hrun hrest, List.append_assoc]
  refine takeWhile_run hrun ?_
  cases rest with
  | nil => simpa using hp
  | cons c rest => exact hrest

theorem dropWhile_append_lineEnd : (cs ++ '\n' :: after).dropWhile p = cs.dropWhile p ++ '\n' :: after := by
  obtain ⟨run, rest, rfl, hrun, hrest⟩ := exists_run p cs
  rw [dropWhile_run hrun hrest, List.append_assoc]
  refine dropWhile_run hrun ?_
  cases rest with
  | nil => simpa using hp
  | cons c rest => exact hrest

end Runs

section LineEnd

variable (cs after : List Char)

theorem head?_append_lineEnd {d : Char} (hd : d ≠ '\n') :
    (cs ++ '\n' :: after).head? = some d ↔ cs.head? = some d := by
  cases cs with
  | nil => simpa using hd.symm
  | cons c cs => rfl

theorem fractionDigits_append_lineEnd : fractionDigits (cs ++ '\n' :: after) = fractionDigits cs := by
  by_cases h : cs.head? = some '.'
  · obtain ⟨rest, rfl⟩ := List.head?_eq_some_iff.1 h
    exact takeWhile_append_lineEnd rfl rest after
  · rw [fractionDigits_of_head h, fractionDigits_of_head (mt (head?_append_lineEnd cs after (by decide)).1 h)]

theorem numeral_append_lineEnd : numeral (cs ++ '\n' :: after) = numeral cs := by
  simp only [numeral, takeWhile_append_lineEnd (p := isDigit) rfl, dropWhile_append_lineEnd (p := isDigit) rfl,
    fractionDigits_append_lineEnd]

theorem word_append_lineEnd : word (cs ++ '\n' :: after) = word cs := by
  simp only [word, takeWhile_append_lineEnd (p := isWordCharacter) rfl]

theorem quoted_append (h : (quoted cs).sort ≠ .openString) : quoted (cs ++ after) = quoted cs := by
  by_cases hq : '"' ∈ cs
  · obtain ⟨body, rest, rfl, hb⟩ := List.eq_append_cons_of_mem hq
    rw [List.append_assoc, List.cons_append, quoted_closed hb, quoted_closed hb]
  · rw [quoted_open hq] at h
    exact absurd rfl h

/-- **A line end behind a text does not change its first segment**, unless this is an open string. -/
theorem first_append_lineEnd (c : Char) (h : (first c cs).sort ≠ .openString) :
    first c (cs ++ '\n' :: after) = first c cs := by
  by_cases hb : c ∈ [' ', '\r', '\t', '\n']
  · rw [first_of_blank hb, first_of_blank hb]
  by_cases hq : c = '"'
  · subst hq
    exact quoted_append cs _ h
  by_cases hs : c = '/'
  · subst hs
    by_cases hcs : cs.head? = some '/'
    · obtain ⟨body, rfl⟩ := List.head?_eq_some_iff.1 hcs
      rw [List.cons_append, first_comment, first_comment, takeWhile_append_lineEnd rfl]
    · rw [first_slash hcs, first_slash (mt (head?_append_lineEnd cs after (by decide)).1 hcs)]
  by_cases hd : isDigit c = true
  · rw [first_of_isDigit hd, first_of_isDigit hd]
    exact numeral_append_lineEnd (c :: cs) after
  by_cases hl : isLetter c = true
  · rw [first_of_isLetter hl, first_of_isLetter hl]
    exact word_append_lineEnd (c :: cs) after
  rw [Bool.not_eq_true] at hd hl
  cases hp : punctuation? c with
  | some k => rw [first_of_punctuation hp, first_of_punctuation hp]
  | none =>
    cases hc : comparison? c with
    | some ks =>
      by_cases hcs : cs.head? = some '='
      · obtain ⟨cs, rfl⟩ := List.head?_eq_some_iff.1 hcs
        rw [List.cons_append, first_of_comparison_equal hc, first_of_comparison_equal hc]
      · rw [first_of_comparison hc hcs, first_of_comparison hc (mt (head?_append_lineEnd cs after (by decide)).1 hcs)]
    | none => rw [first_of_other hb hq hs hd hl hp hc, first_of_other hb hq hs hd hl hp hc]

/-- **A text without open strings** is cut in the same way with a line end behind it. -/
theorem ofText_append_lineEnd (h : ∀ s ∈ ofText cs, s.sort ≠ .openString) :
    ofText (cs ++ '\n' :: after) = ofText cs ++ ⟨.blank, ['\n']⟩ :: ofText after := by
  have hend : ofText ('\n' :: after) = ⟨.blank, ['\n']⟩ :: ofText after := by
    rw [ofText, first_of_blank (by simp)]
    rfl
  fun_induction ofText cs with
  | case1 => exact hend
  | case2 c cs ih =>
    have hfirst := first_append_lineEnd cs after c (h _ List.mem_cons_self)
    have hlength : (first c cs).text.length - 1 ≤ cs.length := by
      have hbegins := first_text_prefix c cs
      have := hbegins.length_le
      rw [List.length_cons] at this
      omega
    rw [List.cons_append, ofText, hfirst, List.drop_append_of_le_length hlength,
      ih (fun s hs => h s (List.mem_cons_of_mem _ hs)), List.cons_append]

end LineEnd

end Segment

/-! ## Scans one after the other -/

/-- The token that many lines further down. -/
def Token.lower (lines : Nat) (t : Token) : Token := { t with line := t.line + lines }

/-- The error that many lines further down. -/
def LexicalError.lower (lines : Nat) (e : LexicalError) : LexicalError := { e with line := e.line + lines }

namespace Scan

/-- A scan that many lines further down. -/
def lower (lines : Nat) (found : Scan) : Scan :=
  ⟨found.tokens.map (.lower lines), found.errors.map (.lower lines)⟩

/-- What is found in a text and then in the text behind it. -/
def followedBy (found after : Scan) : Scan := ⟨found.body ++ after.tokens, found.errors ++ after.errors⟩

theorem lineAfter_add (line lines : Nat) (text : List Char) :
    lineAfter (line + lines) text = lineAfter line text + lines := Nat.add_right_comm _ _ _

/-- Segments further down report the same further down. -/
theorem ofSegments_add (line lines : Nat) (segs : List Segment) :
    ofSegments (line + lines) segs = (ofSegments line segs).lower lines := by
  induction segs generalizing line with
  | nil => rfl
  | cons s segs ih =>
    obtain ⟨sort, text⟩ := s
    rw [ofSegments, lineAfter_add, ih, ofSegments]
    cases sort <;> rfl

theorem report_followedBy (line : Nat) (s : Segment) {found : Scan} (hne : found.tokens ≠ []) (after : Scan) :
    report line s (found.followedBy after) = (report line s found).followedBy after := by
  obtain ⟨sort, text⟩ := s
  cases sort with
  | token kind literal => simp [report, followedBy, body, List.dropLast_cons_of_ne_nil hne]
  | _ => rfl

/-- **Segments report one after the other**, each on the line that those before it lead to. -/
theorem ofSegments_append (line : Nat) (segs segs' : List Segment) : ofSegments line (segs ++ segs') =
    (ofSegments line segs).followedBy (ofSegments (lineAfter line (segs.flatMap Segment.text)) segs') := by
  induction segs generalizing line with
  | nil => rfl
  | cons s segs ih =>
    have hne : (ofSegments (lineAfter line s.text) segs).tokens ≠ [] := by
      rw [tokens_eq_body_append]
      exact List.concat_ne_nil _ _
    rw [List.cons_append, ofSegments, ih, ← lineAfter_append, ofSegments, report_followedBy _ s hne]
    rfl

end Scan

/-- An open string is reported. -/
theorem not_openString_of_errors {a : String} (h : ∀ e ∈ (scan a).errors, e.message ≠ "Unterminated string") :
    ∀ s ∈ Segment.ofText a.toList, s.sort ≠ .openString := by
  intro s hs hopen
  have hcause : LexicalCause.unterminatedString ∈ (Segment.ofText a.toList).filterMap Segment.cause? :=
    List.mem_filterMap.2 ⟨s, hs, by rw [Segment.cause?, hopen]⟩
  have hmessage := List.mem_map_of_mem (f := LexicalCause.message) hcause
  rw [← Scan.errors_ofSegments 1] at hmessage
  obtain ⟨e, he, heq⟩ := List.mem_map.1 hmessage
  exact h e he heq

/-- **Scanning goes line by line**: if no string is left open before a line end, what is found in the whole text is
what is found before the line end, its end apart, and what is found after it, further down by one line and the line
ends before. -/
theorem scan_append_lineEnd {a : String} (h : ∀ e ∈ (scan a).errors, e.message ≠ "Unterminated string") (b : String) :
    scan (a ++ "\n" ++ b) = (scan a).followedBy ((scan b).lower (1 + a.toList.count '\n')) := by
  have htext : (a ++ "\n" ++ b).toList = a.toList ++ '\n' :: b.toList := by
    simp [String.toList_append]
  have hline (segs : List Segment) : Scan.ofSegments (Scan.lineAfter 1 a.toList) (⟨.blank, ['\n']⟩ :: segs) =
      (Scan.ofSegments 1 segs).lower (1 + a.toList.count '\n') := by
    rw [← Scan.ofSegments_add, Nat.add_comm]
    rfl
  rw [scan, htext, Segment.ofText_append_lineEnd _ _ (not_openString_of_errors h), Scan.ofSegments_append,
    Segment.flatMap_text_ofText, hline]
  rfl

/-- A string over two lines, a number with a point behind it, a stray character and a quote in a comment, and then what
looks like the rest of an operator, and an open string. -/
theorem scan_append_lineEnd_comment :
    (∀ e ∈ (scan "\"x\ny\" 1. @ ! // \"").errors, e.message ≠ "Unterminated string") ∧
      scan ("\"x\ny\" 1. @ ! // \"" ++ "\n" ++ "= 5 \"z") =
        (scan "\"x\ny\" 1. @ ! // \"").followedBy ((scan "= 5 \"z").lower 2) := by
  have h : ∀ e ∈ (scan "\"x\ny\" 1. @ ! // \"").errors, e.message ≠ "Unterminated string" := by decide +kernel
  exact ⟨h, scan_append_lineEnd h "= 5 \"z"⟩

end LoxCalc
