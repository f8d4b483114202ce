import LoxCalc.Proofs.Token.FirstSegment

/-!
# LoxCalc.Proofs.Token.Segmentation — scanning is longest match over a lexical grammar

`Segment.Form` lists the texts of each sort of segment, and `Segment.Matches` adds the stray characters, with which no
other segment begins.  `IsSegmentation cs segs` says that `segs` are consecutive pieces of `cs`, each the longest that
matches where it stands.  Every text has exactly one segmentation, the one of `Segment.ofText`
(`isSegmentation_iff`), and the tokens and the errors of a text are read off it (`Scan.tokens_ofSegments`,
`Scan.errors_ofSegments`).
-/

namespace LoxCalc

/-- A token apart from its line. -/
def Token.content (t : Token) : TokenKind × String × Option Literal := (t.kind, t.lexeme, t.literal)

namespace Segment

/-- The tokens with a fixed text. -/
def fixedTexts : List (List Char × TokenKind) :=
  [(['('], .leftParen), ([')'], .rightParen), (['{'], .leftBrace), (['}'], .rightBrace), ([','], .comma),
    (['.'], .dot), (['-'], .minus), (['+'], .plus), ([';'], .semicolon), (['*'], .star), (['/'], .slash),
    (['!'], .bang), (['!', '='], .bangEqual), (['='], .equal), (['=', '='], .equalEqual), (['<'], .less),
    (['<', '='], .lessEqual), (['>'], .greater), (['>', '='], .greaterEqual)]

/-- The texts of the sorts of segments, stray characters apart. -/
inductive Form : SegmentSort → List Char → Prop
  | blank {c : Char} (hc : c ∈ [' ', '\r', '\t', '\n']) : Form .blank [c]
  | comment {body : List Char} (hb : '\n' ∉ body) : Form .comment ('/' :: '/' :: body)
  | fixed {text : List Char} {kind : TokenKind} (h : (text, kind) ∈ fixedTexts) : Form (.token kind none) text
  | integer {whole : List Char} (hne : whole ≠ []) (hw : ∀ c ∈ whole, isDigit c = true) :
      Form (.token .number (some (.number (.ofNumeral whole [])))) whole
  | decimal {whole fraction : List Char} (hne : whole ≠ []) (hw : ∀ c ∈ whole, isDigit c = true)
      (hne' : fraction ≠ []) (hf : ∀ c ∈ fraction, isDigit c = true) :
      Form (.token .number (some (.number (.ofNumeral whole fraction)))) (whole ++ '.' :: fraction)
  | reserved {c : Char} {cs : List Char} {kind : TokenKind} (hc : isLetter c = true)
      (hcs : ∀ d ∈ cs, isWordCharacter d = true) (hk : TokenKind.keyword? (String.ofList (c :: cs)) = some kind) :
      Form (.token kind none) (c :: cs)
  | identifier {c : Char} {cs : List Char} (hc : isLetter c = true) (hcs : ∀ d ∈ cs, isWordCharacter d = true)
      (hk : TokenKind.keyword? (String.ofList (c :: cs)) = none) : Form (.token .identifier none) (c :: cs)
  | string {body : List Char} (hb : '"' ∉ body) :
      Form (.token .string (some (.str (String.ofList body)))) ('"' :: (body ++ ['"']))
  | openString {body : List Char} (hb : '"' ∉ body) : Form .openString ('"' :: body)

/-- The texts of all sorts of segments: a character with which no other segment begins is stray. -/
def Matches (s : Segment) : Prop :=
  Form s.sort s.text ∨ ∃ c, s = ⟨.stray c, [c]⟩ ∧ ∀ sort text, ¬ Form sort (c :: text)

/-- The longest segment that a text begins with. -/
structure IsLongest (s : Segment) (cs : List Char) : Prop where
  isMatch : s.Matches
  begins : s.text <+: cs
  longest : ∀ s' : Segment, s'.Matches → s'.text <+: cs → s'.text.length ≤ s.text.length

/-- Consecutive segments of a whole text, each the longest where it stands. -/
inductive IsSegmentation : List Char → List Segment → Prop
  | nil : IsSegmentation [] []
  | cons {s : Segment} {rest : List Char} {segs : List Segment} (hs : s.IsLongest (s.text ++ rest))
      (h : IsSegmentation rest segs) : IsSegmentation (s.text ++ rest) (s :: segs)

/-! ## The first segment matches -/

theorem Form.ne_nil {sort : SegmentSort} {text : List Char} (h : Form sort text) : text ≠ [] := by
  cases h with
  | fixed h =>
    rintro rfl
    simp [fixedTexts] at h
  | integer hne _ => exact hne
  | _ => simp

/-- A fixed text is a slash, a punctuation character, or a comparison character alone or with `=`. -/
theorem fixedTexts_cases {c : Char} {text : List Char} {kind : TokenKind} (h : (c :: text, kind) ∈ fixedTexts) :
    (c = '/' ∧ text = [] ∧ kind = .slash) ∨ (punctuation? c = some kind ∧ text = []) ∨
      ∃ ks, comparison? c = some ks ∧ (text = [] ∧ kind = ks.1 ∨ text = ['='] ∧ kind = ks.2) := by
  simp only [fixedTexts, List.mem_cons, Prod.mk.injEq, List.cons.injEq, List.not_mem_nil, or_false] at h
  rcases h with h | h | h | h | h | h | h | h | h | h | h | h | h | h | h | h | h | h | h <;>
    obtain ⟨⟨rfl, rfl⟩, rfl⟩ := h <;> simp [punctuation?, comparison?]

theorem fixed_of_punctuation {c : Char} {k : TokenKind} (hc : punctuation? c = some k) :
    Form (.token k none) [c] := by
  refine .fixed ?_
  unfold punctuation? at hc
  split at hc <;> simp only [Option.some.injEq, reduceCtorEq] at hc <;> subst hc <;> simp [fixedTexts]

theorem fixed_of_comparison {c : Char} {ks : TokenKind × TokenKind} (hc : comparison? c = some ks) :
    Form (.token ks.1 none) [c] ∧ Form (.token ks.2 none) [c, '='] := by
  unfold comparison? at hc
  split at hc <;> simp only [Option.some.injEq, reduceCtorEq] at hc <;> subst hc <;>
    exact ⟨.fixed (by simp [fixedTexts]), .fixed (by simp [fixedTexts])⟩

theorem matches_quoted (cs : List Char) : (quoted cs).Matches := by
  by_cases hq : '"' ∈ cs
  · obtain ⟨body, after, rfl, hb⟩ := List.eq_append_cons_of_mem hq
    rw [quoted_closed hb]
    exact .inl (.string hb)
  · rw [quoted_open hq]
    exact .inl (.openString hq)

theorem matches_numeral {c : Char} (hc : isDigit c = true) (cs : List Char) : (numeral (c :: cs)).Matches := by
  obtain ⟨whole, after, h, hw, ha⟩ := exists_run isDigit (c :: cs)
  have hne : whole ≠ [] := by
    rintro rfl
    obtain rfl : c :: cs = after := h
    simpa [hc] using ha c rfl
  rw [h, numeral_append hw ha]
  by_cases hf : fractionDigits after = []
  · rw [hf]
    exact .inl (.integer hne hw)
  · rw [if_neg (by simpa using hf)]
    exact .inl (.decimal hne hw hf (fun _ => isDigit_of_mem_fractionDigits))

theorem matches_word {c : Char} (hc : isLetter c = true) (cs : List Char) : (word (c :: cs)).Matches := by
  obtain ⟨text, after, rfl, ht, ha⟩ := exists_run isWordCharacter cs
  have hct : ∀ d ∈ c :: text, isWordCharacter d = true := by
    simpa [isWordCharacter, hc] using ht
  rw [← List.cons_append, word_append hct ha]
  cases hk : TokenKind.keyword? (String.ofList (c :: text)) with
  | none => exact .inl (.identifier hc ht hk)
  | some kind => exact .inl (.reserved hc ht hk)

theorem matches_stray {c : Char} (hb : c ∉ [' ', '\r', '\t', '\n']) (hq : c ≠ '"') (hs : c ≠ '/')
    (hd : isDigit c = false) (hl : isLetter c = false) (hp : punctuation? c = none) (hc : comparison? c = none) :
    Matches ⟨.stray c, [c]⟩ := by
  refine .inr ⟨c, rfl, ?_⟩
  intro sort text h
  generalize ht : c :: text = whole at h
  cases h with
  | blank hc' =>
    obtain ⟨rfl, -⟩ := List.cons.inj ht
    exact hb hc'
  | comment _ => exact hs (List.cons.inj ht).1
  | fixed h =>
    subst ht
    rcases fixedTexts_cases h with ⟨h, -⟩ | ⟨h, -⟩ | ⟨ks, h, -⟩
    · exact hs h
    · simp [hp] at h
    · simp [hc] at h
  | integer _ hw =>
    subst ht
    simp [hw c (by simp)] at hd
  | @decimal whole fraction hne hw _ _ =>
    obtain ⟨d, whole, rfl⟩ := List.exists_cons_of_ne_nil hne
    obtain ⟨rfl, -⟩ := List.cons.inj ht
    simp [hw c (by simp)] at hd
  | reserved hc' _ _ =>
    obtain ⟨rfl, -⟩ := List.cons.inj ht
    simp [hc'] at hl
  | identifier hc' _ _ =>
    obtain ⟨rfl, -⟩ := List.cons.inj ht
    simp [hc'] at hl
  | string _ => exact hq (List.cons.inj ht).1
  | openString _ => exact hq (List.cons.inj ht).1

/-- **The first segment of a text matches.** -/
theorem matches_first (c : Char) (cs : List Char) : (first c cs).Matches := by
  by_cases hb : c ∈ [' ', '\r', '\t', '\n']
  · rw [first_of_blank hb]
    exact .inl (.blank hb)
  by_cases hq : c = '"'
  · rw [hq, first_quote]
    exact matches_quoted cs
  by_cases hs : c = '/'
  · subst hs
    by_cases hcs : cs.head? = some '/'
    · obtain ⟨body, rfl⟩ := List.head?_eq_some_iff.1 hcs
      rw [first_comment]
      exact .inl (.comment fun h => by simpa using List.mem_takeWhile_imp h)
    · rw [first_slash hcs]
      exact .inl (.fixed (by simp [fixedTexts]))
  by_cases hd : isDigit c = true
  · rw [first_of_isDigit hd]
    exact matches_numeral hd cs
  by_cases hl : isLetter c = true
  · rw [first_of_isLetter hl]
    exact matches_word hl cs
  rw [Bool.not_eq_true] at hd hl
  cases hp : punctuation? c with
  | some k =>
    rw [first_of_punctuation hp]
    exact .inl (fixed_of_punctuation hp)
  | none =>
    cases hc : comparison? c with
    | some ks =>
      by_cases hcs : cs.head? = some '='
      · obtain ⟨cs, rfl⟩ := List.head?_eq_some_iff.1 hcs
        rw [first_of_comparison_equal hc]
        exact .inl (fixed_of_comparison hc).2
      · rw [first_of_comparison hc hcs]
        exact .inl (fixed_of_comparison hc).1
    | none =>
      rw [first_of_other hb hq hs hd hl hp hc]
      exact matches_stray hb hq hs hd hl hp hc

/-! ## No match is longer -/

theorem length_first_pos (c : Char) (cs : List Char) : 1 ≤ (first c cs).text.length :=
  List.length_pos_iff.2 (first_text_ne_nil c cs)

/-- A numeral has all leading digits. -/
theorem length_takeWhile_le_numeral (cs : List Char) :
    (cs.takeWhile isDigit).length ≤ (numeral cs).text.length := by
  simp only [numeral]
  split <;> simp

/-- A string has all characters before the next quote. -/
theorem length_takeWhile_lt_quoted (cs : List Char) :
    (cs.takeWhile (· != '"')).length < (quoted cs).text.length := by
  unfold quoted
  split
  · simp
  · simp only [List.length_append, List.length_cons]
    omega

/-- A word is no longer than the first segment where it stands. -/
theorem length_le_first_word {c : Char} {cs : List Char} (hc : isLetter c = true)
    (hcs : ∀ d ∈ cs, isWordCharacter d = true) (after : List Char) :
    (c :: cs).length ≤ (first c (cs ++ after)).text.length := by
  have hw : ∀ d ∈ c :: cs, isWordCharacter d = true := by
    simpa [isWordCharacter, hc] using hcs
  rw [first_of_isLetter hc, ← List.cons_append]
  exact length_le_length_takeWhile hw after

/-- How a numeral with a point begins, and goes on. -/
theorem decimal_split {c : Char} {text digits fraction : List Char} (h : c :: text = digits ++ '.' :: fraction)
    (hne : digits ≠ []) (hdig : ∀ d ∈ digits, isDigit d = true) (after : List Char) :
    isDigit c = true ∧ c :: (text ++ after) = digits ++ '.' :: (fraction ++ after) := by
  constructor
  · obtain ⟨d, digits, rfl⟩ := List.exists_cons_of_ne_nil hne
    obtain ⟨rfl, -⟩ := List.cons.inj h
    exact hdig c (by simp)
  · rw [← List.cons_append, h, List.append_assoc, List.cons_append]

/-- **No text of the grammar that a text begins with is longer than the first segment.** -/
theorem Form.length_le_first {sort : SegmentSort} {c : Char} {text : List Char} (h : Form sort (c :: text))
    (after : List Char) : (c :: text).length ≤ (first c (text ++ after)).text.length := by
  generalize hct : c :: text = whole at h ⊢
  cases h with
  | blank _ =>
    exact length_first_pos c _
  | @comment body hb =>
    obtain ⟨rfl, rfl⟩ := List.cons.inj hct
    have := length_le_length_takeWhile (bne_of_not_mem hb) after
    rw [List.cons_append, first_comment]
    simpa using this
  | fixed h =>
    subst hct
    rcases fixedTexts_cases h with ⟨-, rfl, -⟩ | ⟨-, rfl⟩ | ⟨ks, hks, ⟨rfl, -⟩ | ⟨rfl, -⟩⟩
    · exact length_first_pos _ _
    · exact length_first_pos _ _
    · exact length_first_pos _ _
    · rw [List.cons_append, first_of_comparison_equal hks]
  | integer hne hw =>
    subst hct
    rw [first_of_isDigit (hw c (by simp)), ← List.cons_append]
    exact Nat.le_trans (length_le_length_takeWhile hw after) (length_takeWhile_le_numeral _)
  | @decimal digits fraction hne hw hne' hf =>
    have hp : ∀ d ∈ ('.' :: (fraction ++ after)).head?, isDigit d = false := by
      rintro d ⟨⟩
      rfl
    have hd : fractionDigits ('.' :: (fraction ++ after)) = (fraction ++ after).takeWhile isDigit := rfl
    have hlen := length_le_length_takeWhile hf after
    have hpos := List.length_pos_iff.2 hne'
    have hnum := numeral_append hw hp
    rw [hd, if_neg (by rw [List.isEmpty_iff, ← List.length_eq_zero_iff]; omega)] at hnum
    obtain ⟨hc, hcs⟩ := decimal_split hct hne hw after
    rw [first_of_isDigit hc, hcs, hnum]
    simp only [List.length_append, List.length_cons]
    omega
  | reserved hc hcs _ =>
    obtain ⟨rfl, rfl⟩ := List.cons.inj hct
    exact length_le_first_word hc hcs after
  | identifier hc hcs _ =>
    obtain ⟨rfl, rfl⟩ := List.cons.inj hct
    exact length_le_first_word hc hcs after
  | @string body hb =>
    obtain ⟨rfl, rfl⟩ := List.cons.inj hct
    rw [first_quote, List.append_assoc, List.singleton_append, quoted_closed hb]
    simp
  | @openString body hb =>
    obtain ⟨rfl, rfl⟩ := List.cons.inj hct
    rw [first_quote]
    exact Nat.lt_of_le_of_lt (length_le_length_takeWhile (bne_of_not_mem hb) after) (length_takeWhile_lt_quoted _)

/-- **The first segment is the longest that matches.** -/
theorem isLongest_first (c : Char) (cs : List Char) : (first c cs).IsLongest (c :: cs) := by
  refine ⟨matches_first c cs, first_text_prefix c cs, ?_⟩
  rintro ⟨sort, text⟩ (h | ⟨d, hd, -⟩) ⟨after, hs⟩
  · obtain ⟨d, text, rfl⟩ := List.exists_cons_of_ne_nil h.ne_nil
    obtain ⟨rfl, rfl⟩ := List.cons.inj hs
    exact h.length_le_first after
  · rw [hd]
    exact length_first_pos c cs

/-! ## A text is of one sort only -/

/-- What follows a text does not continue it: the end, a space or a closing parenthesis. -/
def Separated (after : List Char) : Prop := ∀ c ∈ after.head?, c = ' ' ∨ c = ')'

section Separated

variable {after : List Char}

theorem separated_nil : Separated [] := by
  rintro c ⟨⟩

theorem separated_space (cs : List Char) : Separated (' ' :: cs) := by
  rintro c ⟨⟩
  exact .inl rfl

theorem separated_closing (cs : List Char) : Separated (')' :: cs) := by
  rintro c ⟨⟩
  exact .inr rfl

theorem Separated.head_not (hs : Separated after) {p : Char → Bool} (h : p ' ' = false) (h' : p ')' = false) :
    ∀ c ∈ after.head?, p c = false := by
  intro c hc
  rcases hs c hc with rfl | rfl
  · exact h
  · exact h'

theorem Separated.head_ne (hs : Separated after) {d : Char} (h : ' ' ≠ d) (h' : ')' ≠ d) :
    after.head? ≠ some d := by
  intro hd
  rcases hs d hd with rfl | rfl
  · exact h rfl
  · exact h' rfl

/-- A word is the first segment where no word character follows. -/
theorem first_word_append {c : Char} {cs : List Char} (hc : isLetter c = true)
    (hcs : ∀ d ∈ cs, isWordCharacter d = true) (ha : ∀ d ∈ after.head?, isWordCharacter d = false) :
    first c (cs ++ after) =
      ⟨.token ((TokenKind.keyword? (String.ofList (c :: cs))).getD .identifier) none, c :: cs⟩ := by
  have hw : ∀ d ∈ c :: cs, isWordCharacter d = true := by
    simpa [isWordCharacter, hc] using hcs
  rw [first_of_isLetter hc, ← List.cons_append]
  exact word_append hw ha

/-- **A text of the grammar is the first segment where it is separated**; comments and open strings run to the end. -/
theorem Form.first_append {sort : SegmentSort} {c : Char} {text : List Char} (h : Form sort (c :: text))
    (hs : Separated after) (ho : sort = .comment ∨ sort = .openString → after = []) :
    first c (text ++ after) = ⟨sort, c :: text⟩ := by
  have hd : ∀ c ∈ after.head?, isDigit c = false := hs.head_not rfl rfl
  have hw : ∀ c ∈ after.head?, isWordCharacter c = false := hs.head_not rfl rfl
  generalize hct : c :: text = whole at h ⊢
  cases h with
  | blank hc =>
    obtain ⟨rfl, rfl⟩ := List.cons.inj hct
    exact first_of_blank hc _
  | @comment body hb =>
    obtain ⟨rfl, rfl⟩ := List.cons.inj hct
    obtain rfl := ho (.inl rfl)
    rw [List.cons_append, first_comment, takeWhile_run (bne_of_not_mem hb) (by simp)]
  | fixed h =>
    subst hct
    rcases fixedTexts_cases h with ⟨rfl, rfl, rfl⟩ | ⟨hp, rfl⟩ | ⟨ks, hks, ⟨rfl, rfl⟩ | ⟨rfl, rfl⟩⟩
    · exact first_slash (hs.head_ne (by decide) (by decide))
    · exact first_of_punctuation hp _
    · exact first_of_comparison hks (hs.head_ne (by decide) (by decide))
    · exact first_of_comparison_equal hks _
  | integer hne hdig =>
    subst hct
    rw [first_of_isDigit (hdig c (by simp)), ← List.cons_append]
    exact numeral_integer hdig hd (hs.head_ne (by decide) (by decide))
  | @decimal digits fraction hne hdig hne' hf =>
    obtain ⟨hc, hcs⟩ := decimal_split hct hne hdig after
    rw [first_of_isDigit hc, hcs, numeral_decimal hdig hf hne' hd]
  | reserved hc hcs hk =>
    obtain ⟨rfl, rfl⟩ := List.cons.inj hct
    rw [first_word_append hc hcs hw, hk]
    rfl
  | identifier hc hcs hk =>
    obtain ⟨rfl, rfl⟩ := List.cons.inj hct
    rw [first_word_append hc hcs hw, hk]
    rfl
  | @string body hb =>
    obtain ⟨rfl, rfl⟩ := List.cons.inj hct
    rw [first_quote, List.append_assoc, List.singleton_append, quoted_closed hb]
    rfl
  | @openString body hb =>
    obtain ⟨rfl, rfl⟩ := List.cons.inj hct
    obtain rfl := ho (.inr rfl)
    rw [first_quote, List.append_nil, quoted_open hb]

end Separated

/-- A whole text of the grammar is its own first segment. -/
theorem Form.first_eq {sort : SegmentSort} {c : Char} {text : List Char} (h : Form sort (c :: text)) :
    first c text = ⟨sort, c :: text⟩ := by
  simpa using h.first_append separated_nil (fun _ => rfl)

theorem Matches.ne_nil {s : Segment} (h : s.Matches) : s.text ≠ [] := by
  rcases h with h | ⟨c, rfl, -⟩
  · exact h.ne_nil
  · simp

/-- Segments that match are equal when their texts are. -/
theorem Matches.eq_of_text_eq {s s' : Segment} (h : s.Matches) (h' : s'.Matches) (ht : s.text = s'.text) :
    s = s' := by
  obtain ⟨sort, text⟩ := s
  obtain ⟨sort', text'⟩ := s'
  obtain rfl : text = text' := ht
  obtain ⟨c, cs, rfl⟩ := List.exists_cons_of_ne_nil h.ne_nil
  rcases h with h | ⟨d, hd, hno⟩
  · rcases h' with h' | ⟨d, hd, hno⟩
    · rw [← h.first_eq, ← h'.first_eq]
    · obtain ⟨rfl, rfl⟩ := List.cons.inj (congrArg Segment.text hd)
      exact absurd h (hno sort [])
  · obtain ⟨rfl, rfl⟩ := List.cons.inj (congrArg Segment.text hd)
    rcases h' with h' | ⟨e, he, -⟩
    · exact absurd h' (hno sort' [])
    · obtain ⟨rfl, -⟩ := List.cons.inj (congrArg Segment.text he)
      rw [hd, he]

/-- The longest segment is unique. -/
theorem IsLongest.eq_first {s : Segment} {c : Char} {cs : List Char} (h : s.IsLongest (c :: cs)) :
    s = first c cs := by
  have h' := isLongest_first c cs
  refine h.isMatch.eq_of_text_eq h'.isMatch ?_
  have hle := h'.longest s h.isMatch h.begins
  have hge := h.longest _ h'.isMatch h'.begins
  exact (List.prefix_of_prefix_length_le h.begins h'.begins hle).eq_of_length (Nat.le_antisymm hle hge)

/-- An open string runs to the end. -/
theorem IsLongest.eq_nil_of_openString {s : Segment} {rest : List Char} (h : s.IsLongest (s.text ++ rest))
    (hs : s.sort = .openString) : rest = [] := by
  obtain ⟨sort, text⟩ := s
  obtain rfl : sort = .openString := hs
  rcases h.isMatch with hm | ⟨d, hd, -⟩
  · cases hm with
    | @openString body hb =>
      have heq : _ = quoted (body ++ rest) := h.eq_first
      by_cases hq : '"' ∈ body ++ rest
      · obtain ⟨inner, after, hsplit, hi⟩ := List.eq_append_cons_of_mem hq
        rw [hsplit, quoted_closed hi] at heq
        simp at heq
      · rw [quoted_open hq] at heq
        simpa using heq
  · simp at hd

/-! ## The segments of a text -/

/-- The segments of a text are the longest one in front and the segments of the rest. -/
theorem ofText_append {s : Segment} {rest : List Char} (hs : s.IsLongest (s.text ++ rest)) :
    ofText (s.text ++ rest) = s :: ofText rest := by
  obtain ⟨c, cs, hc⟩ := List.exists_cons_of_ne_nil hs.isMatch.ne_nil
  rw [hc, List.cons_append] at hs ⊢
  rw [ofText, ← hs.eq_first, hc]
  simp

theorem isSegmentation_ofText (cs : List Char) : IsSegmentation cs (ofText cs) := by
  fun_induction ofText cs with
  | case1 => exact .nil
  | case2 c cs ih =>
    have hs := isLongest_first c cs
    obtain ⟨rest, hrest⟩ := hs.begins
    have hdrop : cs.drop ((first c cs).text.length - 1) = rest := by
      obtain ⟨d, ds, hd⟩ := List.exists_cons_of_ne_nil (first_text_ne_nil c cs)
      rw [hd, List.cons_append] at hrest
      obtain ⟨rfl, rfl⟩ := List.cons.inj hrest
      simp [hd]
    rw [hdrop] at ih ⊢
    rw [← hrest] at hs
    have := IsSegmentation.cons hs ih
    rwa [hrest] at this

/-- **A text has exactly one segmentation.** -/
theorem isSegmentation_iff {cs : List Char} {segs : List Segment} :
    IsSegmentation cs segs ↔ segs = ofText cs := by
  constructor
  · intro h
    induction h with
    | nil => rw [ofText]
    | cons hs _ ih => rw [ofText_append hs, ih]
  · rintro rfl
    exact isSegmentation_ofText cs

/-! ## What the segments report -/

/-- The kind, the text and the value of the token that a segment gives. -/
def token? (s : Segment) : Option (TokenKind × String × Option Literal) :=
  match s.sort with
  | .token kind literal => some (kind, String.ofList s.text, literal)
  | _ => none

/-- The reason why a segment is reported as an error. -/
def cause? (s : Segment) : Option LexicalCause :=
  match s.sort with
  | .openString => some .unterminatedString
  | .stray c => some (.unexpectedCharacter c)
  | _ => none

theorem keyword_kind {word : String} {kind : TokenKind} (h : TokenKind.keyword? word = some kind) :
    kind ≠ .eof ∧ kind ≠ .number ∧ kind ≠ .string := by
  have hall : ∀ p ∈ TokenKind.reservedWords, p.2 ≠ .eof ∧ p.2 ≠ .number ∧ p.2 ≠ .string := by decide
  obtain ⟨l₁, l₂, hl, -⟩ := List.lookup_eq_some_iff.1 h
  exact hall (word, kind) (by rw [hl]; simp)

theorem fixedTexts_kind {text : List Char} {kind : TokenKind} (h : (text, kind) ∈ fixedTexts) :
    kind ≠ .eof ∧ kind ≠ .number ∧ kind ≠ .string := by
  have hall : ∀ p ∈ fixedTexts, p.2 ≠ .eof ∧ p.2 ≠ .number ∧ p.2 ≠ .string := by decide
  exact hall (text, kind) h

/-- Numbers and strings are the tokens with a value, and none is an end. -/
theorem Form.kind_literal {kind : TokenKind} {literal : Option Literal} {text : List Char}
    (h : Form (.token kind literal) text) :
    kind ≠ .eof ∧ (literal.isSome = true ↔ kind = .number ∨ kind = .string) := by
  cases h with
  | fixed h => simpa using fixedTexts_kind h
  | reserved _ _ hk => simpa using keyword_kind hk
  | _ => simp

/-- The text of a number begins with a digit. -/
theorem Form.number_head {literal : Option Literal} {text : List Char} (h : Form (.token .number literal) text) :
    ∃ c ∈ text.head?, isDigit c = true := by
  cases h with
  | fixed h => exact absurd rfl (fixedTexts_kind h).2.1
  | reserved _ _ hk => exact absurd rfl (keyword_kind hk).2.1
  | integer hne hw =>
    obtain ⟨c, text, rfl⟩ := List.exists_cons_of_ne_nil hne
    exact ⟨c, rfl, hw c (by simp)⟩
  | decimal hne hw _ _ =>
    obtain ⟨c, whole, rfl⟩ := List.exists_cons_of_ne_nil hne
    exact ⟨c, rfl, hw c (by simp)⟩

theorem IsSegmentation.matches_of_mem {cs : List Char} {segs : List Segment} (h : IsSegmentation cs segs) :
    ∀ s ∈ segs, s.Matches := by
  induction h with
  | nil => simp
  | cons hs _ ih =>
    intro s hmem
    rcases List.mem_cons.1 hmem with rfl | hmem
    · exact hs.isMatch
    · exact ih s hmem

theorem IsSegmentation.eq_nil_of_openString {cs : List Char} {segs rest : List Segment} {s : Segment}
    (h : IsSegmentation cs segs) (hsuf : s :: rest <:+ segs) (hs : s.sort = .openString) : rest = [] := by
  induction h with
  | nil => simp at hsuf
  | cons hlong h ih =>
    rcases List.suffix_cons_iff.1 hsuf with heq | hsuf
    · obtain ⟨rfl, rfl⟩ := List.cons.inj heq
      obtain rfl := hlong.eq_nil_of_openString hs
      rw [isSegmentation_iff.1 h, ofText]
    · exact ih hsuf

end Segment

/-- The tokens of segments are those that the segments give, and an end. -/
theorem Scan.tokens_ofSegments (line : Nat) (segs : List Segment) :
    (Scan.ofSegments line segs).tokens.map Token.content =
      segs.filterMap Segment.token? ++ [(.eof, "", none)] := by
  induction segs generalizing line with
  | nil => rfl
  | cons s segs ih =>
    obtain ⟨sort, text⟩ := s
    cases sort <;> simp [Scan.ofSegments, Scan.report, List.filterMap_cons, Segment.token?, Token.content, ih]

/-- The errors of segments are those that the segments give. -/
theorem Scan.errors_ofSegments (line : Nat) (segs : List Segment) :
    (Scan.ofSegments line segs).errors.map LexicalError.message =
      (segs.filterMap Segment.cause?).map LexicalCause.message := by
  induction segs generalizing line with
  | nil => rfl
  | cons s segs ih =>
    obtain ⟨sort, text⟩ := s
    cases sort <;> simp [Scan.ofSegments, Scan.report, List.filterMap_cons, Segment.cause?, ih]

/-- The tokens in front of the end are those that the segments give. -/
theorem Scan.content_body (line : Nat) (segs : List Segment) :
    (Scan.ofSegments line segs).body.map Token.content = segs.filterMap Segment.token? := by
  rw [Scan.body, List.map_dropLast, Scan.tokens_ofSegments, List.dropLast_concat]

open Segment in
/-- The tokens of a text, its end apart, have texts of the grammar. -/
theorem form_of_mem_body {source : String} {t : Token} (ht : t ∈ (scan source).body) :
    Form (.token t.kind t.literal) t.lexeme.toList := by
  have hmem := List.mem_map_of_mem (f := Token.content) ht
  rw [scan, Scan.content_body] at hmem
  obtain ⟨⟨sort, text⟩, hs, hst⟩ := List.mem_filterMap.1 hmem
  cases sort with
  | token kind literal =>
    obtain ⟨rfl, hlex, rfl⟩ : kind = t.kind ∧ String.ofList text = t.lexeme ∧ literal = t.literal := by
      simpa [token?, Token.content] using hst
    rw [← hlex, String.toList_ofList]
    rcases (isSegmentation_ofText _).matches_of_mem _ hs with h | ⟨c, hc, -⟩
    · exact h
    · simp at hc
  | _ => simp [token?] at hst

open Segment in
/-- The token of a scanned text, its end apart, has a text of the grammar. -/
theorem form_of_mem_tokens {source : String} {t : Token} (ht : t ∈ (scan source).tokens) (hk : t.kind ≠ .eof) :
    Form (.token t.kind t.literal) t.lexeme.toList := by
  rw [scan, Scan.tokens_eq_body_append, List.mem_append, List.mem_singleton] at ht
  rcases ht with ht | rfl
  · exact form_of_mem_body ht
  · exact absurd rfl hk

/-- **Scanning is longest match.**  A text has one segmentation; its tokens and errors are those of the segments in
order, and one end. -/
theorem scan_segmentation (source : String) : ∃ segs : List Segment,
    (∀ segs', Segment.IsSegmentation source.toList segs' ↔ segs' = segs) ∧
    segs.flatMap Segment.text = source.toList ∧
    (∀ s rest, s :: rest <:+ segs → s.sort = .openString → rest = []) ∧
    (scan source).tokens.map Token.content =
      segs.filterMap Segment.token? ++ [(.eof, "", none)] ∧
    (∀ t ∈ segs.filterMap Segment.token?,
      t.1 ≠ .eof ∧ (t.2.2.isSome = true ↔ t.1 = .number ∨ t.1 = .string)) ∧
    (scan source).errors.map LexicalError.message = (segs.filterMap Segment.cause?).map LexicalCause.message := by
  have hseg := Segment.isSegmentation_ofText source.toList
  refine ⟨Segment.ofText source.toList, fun _ => Segment.isSegmentation_iff, Segment.flatMap_text_ofText _, ?_,
    Scan.tokens_ofSegments 1 _, ?_, Scan.errors_ofSegments 1 _⟩
  · intro s rest
    exact hseg.eq_nil_of_openString
  · intro t ht
    obtain ⟨s, hs, hst⟩ := List.mem_filterMap.1 ht
    obtain ⟨sort, text⟩ := s
    cases sort with
    | token kind literal =>
      obtain rfl := Option.some.inj hst
      rcases hseg.matches_of_mem _ hs with h | ⟨c, hc, -⟩
      · exact h.kind_literal
      · simp at hc
    | _ => simp [Segment.token?] at hst

end LoxCalc
