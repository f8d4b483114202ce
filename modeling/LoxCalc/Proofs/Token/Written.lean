import LoxCalc.Proofs.Token.Segmentation

/-!
# LoxCalc.Proofs.Token.Written — texts that are scanned to given tokens

`Writes text p` says that `text`, wherever it is separated from what follows, is scanned to the tokens `p` and to
nothing else.  It is closed under what a printer does: spaces between texts (`Writes.spaced`), parentheses around a
text (`Writes.parenthesised`) and a prefix operator in front of one (`Writes.prefixed`).

The texts of the tokens of any text, with spaces between them, write these tokens (`writes_spaced`); so tokens survive
being written out and scanned again (`scan_spaced_body`).
-/

namespace LoxCalc

namespace Segment

/-- Where the text is separated, its tokens are `p`, lines apart, and it has no errors. -/
def Writes (text : List Char) (p : List Token) : Prop :=
  ∀ after, Separated after → ∃ segs, ofText (text ++ after) = segs ++ ofText after ∧
    segs.filterMap token? = p.map Token.content ∧ segs.filterMap cause? = []

/-- The tokens with a fixed text and no value. -/
def IsFixed (t : Token) : Prop := (t.lexeme.toList, t.kind) ∈ fixedTexts ∧ t.literal = none

def leftParenthesis : Token := ⟨.leftParen, "(", none, 0⟩

def rightParenthesis : Token := ⟨.rightParen, ")", none, 0⟩

/-- The segment of a token. -/
def ofToken (t : Token) : Segment := ⟨.token t.kind t.literal, t.lexeme.toList⟩

@[simp] theorem token?_ofToken (t : Token) : token? (ofToken t) = some t.content := by
  simp [token?, ofToken, Token.content]

@[simp] theorem cause?_ofToken (t : Token) : cause? (ofToken t) = none := rfl

/-! ## One segment in front -/

section Front

variable {c : Char} {text after : List Char} {s : Segment}

/-- A text is cut after its first segment. -/
theorem ofText_of_first (h : first c (text ++ after) = s) (hs : s.text = c :: text) :
    ofText (c :: text ++ after) = s :: ofText after := by
  rw [List.cons_append, ofText, h, hs]
  simp

theorem ofText_token {t : Token} (h : first c (text ++ after) = ofToken t) (ht : t.lexeme.toList = c :: text) :
    ofText (t.lexeme.toList ++ after) = ofToken t :: ofText after := by
  rw [ht]
  exact ofText_of_first h ht

/-- A text is cut after a first segment of one character. -/
theorem ofText_of_first_single (h : first c after = s) (hs : s.text = [c]) :
    ofText (c :: after) = s :: ofText after := by
  rw [← List.nil_append after] at h
  exact ofText_of_first h hs

theorem ofText_space (after : List Char) : ofText (' ' :: after) = ⟨.blank, [' ']⟩ :: ofText after :=
  ofText_of_first_single (first_of_blank (by simp) after) rfl

end Front

/-! ## What a printer does -/

section Writes

variable {s t : List Char} {p q : List Token}

/-- A token of the grammar is written by its text. -/
theorem writes_token {t : Token} (h : Form (.token t.kind t.literal) t.lexeme.toList) :
    Writes t.lexeme.toList [t] := by
  intro after hs
  obtain ⟨c, text, hc⟩ := List.exists_cons_of_ne_nil h.ne_nil
  have hfirst : first c (text ++ after) = ofToken t := by
    rw [Form.first_append (hc ▸ h) hs (by simp), ofToken, hc]
  exact ⟨[ofToken t], ofText_token hfirst hc, by simp, by simp⟩

theorem writes_nil : Writes [] [] := fun _ _ => ⟨[], rfl, rfl, rfl⟩

theorem writes_fixed {t : Token} (h : IsFixed t) : Writes t.lexeme.toList [t] := by
  refine writes_token ?_
  rw [h.2]
  exact .fixed h.1

/-- Texts with a space between them write their tokens in order. -/
theorem Writes.spaced (hs : Writes s p) (ht : Writes t q) : Writes (s ++ ' ' :: t) (p ++ q) := by
  intro after ha
  obtain ⟨segs, h1, h2, h3⟩ := hs (' ' :: (t ++ after)) (separated_space _)
  obtain ⟨segs', h1', h2', h3'⟩ := ht after ha
  refine ⟨segs ++ ⟨.blank, [' ']⟩ :: segs', ?_, ?_, ?_⟩
  · rw [List.append_assoc, List.cons_append, h1, ofText_space, h1', List.append_assoc, List.cons_append]
  · rw [List.filterMap_append, List.filterMap_cons, h2, h2', List.map_append]
    rfl
  · rw [List.filterMap_append, List.filterMap_cons, h3, h3']
    rfl

/-- A text after a token that it does not continue. -/
theorem Writes.after_token {op : Token} {c : Char} {text : List Char} (ht : Writes t q)
    (hop : op.lexeme.toList = c :: text) (hfirst : ∀ after, first c (text ++ (t ++ after)) = ofToken op) :
    Writes (op.lexeme.toList ++ t) (op :: q) := by
  intro after ha
  obtain ⟨segs, h1, h2, h3⟩ := ht after ha
  refine ⟨ofToken op :: segs, ?_, ?_, ?_⟩
  · rw [List.append_assoc, ofText_token (hfirst after) hop, h1, List.cons_append]
  · rw [List.filterMap_cons, token?_ofToken, h2, List.map_cons]
  · rw [List.filterMap_cons, cause?_ofToken, h3]

/-- A prefix operator in front of a text that does not begin with `=`. -/
theorem Writes.prefixed {op : Token} (ht : Writes t q) (hop : IsFixed op) (hk : op.kind.isPrefixOperator = true)
    (hh : ∃ d ∈ t.head?, d ≠ '=') : Writes (op.lexeme.toList ++ t) (op :: q) := by
  obtain ⟨kind, lexeme, literal, line⟩ := op
  obtain ⟨hmem, rfl⟩ : (lexeme.toList, kind) ∈ fixedTexts ∧ literal = none := hop
  obtain ⟨d, hd, hne⟩ := hh
  obtain ⟨ds, rfl⟩ := List.head?_eq_some_iff.1 hd
  have hcases : lexeme.toList = ['-'] ∧ kind = .minus ∨ lexeme.toList = ['!'] ∧ kind = .bang := by
    simp only [fixedTexts, List.mem_cons, Prod.mk.injEq, List.not_mem_nil, or_false] at hmem
    rcases hmem with h | h | h | h | h | h | h | h | h | h | h | h | h | h | h | h | h | h | h <;>
      obtain ⟨h, rfl⟩ := h <;> simp_all [TokenKind.isPrefixOperator]
  rcases hcases with ⟨hl, rfl⟩ | ⟨hl, rfl⟩
  · refine ht.after_token hl ?_
    intro after
    rw [first_of_punctuation rfl, ofToken, hl]
  · refine ht.after_token hl ?_
    intro after
    rw [List.nil_append, first_of_comparison rfl (by simpa using hne), ofToken, hl]

/-- Parentheses around a text. -/
theorem Writes.parenthesised (ht : Writes t q) :
    Writes ('(' :: (t ++ [')'])) (leftParenthesis :: (q ++ [rightParenthesis])) := by
  intro after ha
  obtain ⟨segs, h1, h2, h3⟩ := ht (')' :: after) (separated_closing after)
  have hclose : ofText (')' :: after) = ofToken rightParenthesis :: ofText after :=
    ofText_of_first_single (first_of_punctuation rfl after) rfl
  have hopen (cs : List Char) : ofText ('(' :: cs) = ofToken leftParenthesis :: ofText cs :=
    ofText_of_first_single (first_of_punctuation rfl cs) rfl
  refine ⟨ofToken leftParenthesis :: (segs ++ [ofToken rightParenthesis]), ?_, ?_, ?_⟩
  · rw [List.cons_append, List.append_assoc, List.singleton_append, hopen, h1, hclose, List.cons_append,
      List.append_assoc, List.singleton_append]
  · simp [h2]
  · rw [List.filterMap_cons, List.filterMap_append, h3]
    rfl

end Writes

end Segment

/-! ## The scan of a written text -/

open Segment in
/-- **The scan of a written text**: its tokens and an end, on whatever lines, and no error. -/
theorem content_of_writes {source : String} {p : List Token} (h : Writes source.toList p) :
    (scan source).tokens.map Token.content = p.map Token.content ++ [(.eof, "", none)] ∧
      (scan source).errors = [] := by
  obtain ⟨segs, h1, h2, h3⟩ := h [] separated_nil
  have hsegs : ofText source.toList = segs := by
    rw [List.append_nil, ofText, List.append_nil] at h1
    exact h1
  have herrors := Scan.errors_ofSegments 1 segs
  rw [h3, List.map_nil, List.map_eq_nil_iff] at herrors
  rw [scan, hsegs, Scan.tokens_ofSegments, h2]
  exact ⟨rfl, herrors⟩

open Segment in
theorem scan_of_writes {source : String} {p : List Token} (h : Writes source.toList p) :
    ∃ q ending, (scan source).tokens = q ++ [ending] ∧ q.map Token.content = p.map Token.content ∧
      ending.kind = .eof ∧ (scan source).errors = [] := by
  obtain ⟨htokens, herrors⟩ := content_of_writes h
  obtain ⟨q, rest, heq, hq, hrest⟩ := List.map_eq_append_iff.1 htokens
  obtain ⟨ending, rfl, hending⟩ := List.map_eq_singleton_iff.1 hrest
  exact ⟨q, ending, heq, hq, congrArg Prod.fst hending, herrors⟩

/-! ## Tokens written out again -/

section Spaced

open Segment

/-- The texts of tokens with single spaces between them. -/
def Token.spaced (ts : List Token) : String := " ".intercalate (ts.map Token.lexeme)

theorem spaced_cons_cons (t u : Token) (ts : List Token) :
    (Token.spaced (t :: u :: ts)).toList = t.lexeme.toList ++ ' ' :: (Token.spaced (u :: ts)).toList := by
  simp [Token.spaced, String.intercalate_cons_cons, String.toList_append]

/-- Tokens of the grammar are written by their texts. -/
theorem writes_spaced : ∀ {ts : List Token}, (∀ t ∈ ts, Form (.token t.kind t.literal) t.lexeme.toList) →
    Writes (Token.spaced ts).toList ts
  | [], _ => writes_nil
  | [t], h => by
    rw [Token.spaced, List.map_singleton, String.intercalate_singleton]
    exact writes_token (h t List.mem_cons_self)
  | t :: u :: ts, h => by
    rw [spaced_cons_cons]
    exact (writes_token (h t List.mem_cons_self)).spaced (writes_spaced fun v hv => h v (List.mem_cons_of_mem t hv))

/-- **Tokens survive being written out**: the texts of the tokens of a text, with single spaces between them, are
scanned to the same tokens, lines apart, without an error, whatever the text holds besides. -/
theorem scan_spaced_body (source : String) :
    (scan (Token.spaced (scan source).body)).errors = [] ∧
      (scan (Token.spaced (scan source).body)).tokens.map Token.content =
        (scan source).tokens.map Token.content := by
  obtain ⟨htokens, herrors⟩ := content_of_writes (writes_spaced fun _ ht => form_of_mem_body ht)
  refine ⟨herrors, ?_⟩
  rw [htokens, scan, Scan.content_body, Scan.tokens_ofSegments]

end Spaced

end LoxCalc
