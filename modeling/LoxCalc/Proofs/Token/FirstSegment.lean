import LoxCalc.Token.Scan
import Mathlib.Data.List.TakeWhile

/-!
# LoxCalc.Proofs.Token.FirstSegment — the first segment of a text, sort by sort

One equation for each way a text can begin: what `Segment.first` gives, and what may follow it.  Nothing else opens
the definition.
-/

namespace LoxCalc.Segment

/-! ## Runs of characters -/

section Runs

variable {p : Char → Bool} {run after : List Char}

/-- A run of characters of a class ends where the class ends. -/
theorem takeWhile_run (hr : ∀ c ∈ run, p c = true) (ha : ∀ c ∈ after.head?, p c = false) :
    (run ++ after).takeWhile p = run := by
  rw [List.takeWhile_append_of_pos hr]
  cases after with
  | nil => simp
  | cons c after => simp [ha c rfl]

theorem dropWhile_run (hr : ∀ c ∈ run, p c = true) (ha : ∀ c ∈ after.head?, p c = false) :
    (run ++ after).dropWhile p = after := by
  rw [List.dropWhile_append_of_pos hr]
  cases after with
  | nil => simp
  | cons c after => simp [ha c rfl]

/-- Every text is a run of characters of a class and a rest that does not begin with one. -/
theorem exists_run (p : Char → Bool) (cs : List Char) : ∃ run after, cs = run ++ after ∧
    (∀ c ∈ run, p c = true) ∧ ∀ c ∈ after.head?, p c = false := by
  refine ⟨cs.takeWhile p, cs.dropWhile p, List.takeWhile_append_dropWhile.symm, ?_, ?_⟩
  · exact List.all_eq_true.1 List.all_takeWhile
  · intro c hc
    have := List.head?_dropWhile_not p cs
    rw [Option.mem_def.1 hc] at this
    simpa using this

/-- No run of a class at the beginning is longer than the longest. -/
theorem length_le_length_takeWhile (hr : ∀ c ∈ run, p c = true) (after : List Char) :
    run.length ≤ ((run ++ after).takeWhile p).length := by
  rw [List.takeWhile_append_of_pos hr]
  simp

theorem bne_of_not_mem {d : Char} (h : d ∉ run) : ∀ c ∈ run, (c != d) = true := by
  intro c hc
  simpa using fun hcd : c = d => h (hcd ▸ hc)

end Runs

/-! ## Classes of characters -/

theorem ne_of_isLetter {c d : Char} (h : isLetter c = true) (hd : isLetter d = false) : c ≠ d := by
  rintro rfl
  simp [h] at hd

theorem ne_of_isDigit {c d : Char} (h : isDigit c = true) (hd : isDigit d = false) : c ≠ d := by
  rintro rfl
  simp [h] at hd

theorem isDigit_of_isLetter {c : Char} (h : isLetter c = true) : isDigit c = false := by
  by_contra hd
  simp only [isLetter, isDigit, Bool.or_eq_true, Bool.and_eq_true, decide_eq_true_eq, beq_iff_eq,
    Bool.not_eq_false, Char.le_def, UInt32.le_iff_toNat_le] at h hd
  have ha : ('a' : Char).val.toNat = 97 ∧ ('A' : Char).val.toNat = 65 ∧ ('9' : Char).val.toNat = 57 := by decide
  rcases h with (h | h) | rfl
  · omega
  · omega
  · revert hd
    decide

/-! ## One equation for each beginning -/

theorem first_of_blank {c : Char} (hc : c ∈ [' ', '\r', '\t', '\n']) (cs : List Char) : first c cs = ⟨.blank, [c]⟩ := by
  simp only [List.mem_cons, List.not_mem_nil, or_false] at hc
  rcases hc with rfl | rfl | rfl | rfl <;> rfl

theorem first_quote (cs : List Char) : first '"' cs = quoted cs := rfl

theorem first_comment (cs : List Char) :
    first '/' ('/' :: cs) = ⟨.comment, '/' :: '/' :: cs.takeWhile (· != '\n')⟩ := by
  simp [first]

theorem first_slash {cs : List Char} (h : cs.head? ≠ some '/') : first '/' cs = ⟨.token .slash none, ['/']⟩ := by
  cases cs with
  | nil => rfl
  | cons d cs =>
    have hd : d ≠ '/' := by simpa using h
    unfold first
    simp [hd]

theorem first_of_isDigit {c : Char} (hc : isDigit c = true) (cs : List Char) : first c cs = numeral (c :: cs) := by
  have h (d : Char) (hd : isDigit d = false) : (c == d) = false := by simpa using ne_of_isDigit hc hd
  simp [first, hc, h ' ' rfl, h '\t' rfl, h '\r' rfl, h '\n' rfl, h '"' rfl, h '/' rfl]

theorem first_of_isLetter {c : Char} (hc : isLetter c = true) (cs : List Char) : first c cs = word (c :: cs) := by
  have h (d : Char) (hd : isLetter d = false) : (c == d) = false := by simpa using ne_of_isLetter hc hd
  simp [first, hc, isDigit_of_isLetter hc, h ' ' rfl, h '\t' rfl, h '\r' rfl, h '\n' rfl, h '"' rfl, h '/' rfl]

theorem first_of_punctuation {c : Char} {k : TokenKind} (hc : punctuation? c = some k) (cs : List Char) :
    first c cs = ⟨.token k none, [c]⟩ := by
  unfold punctuation? at hc
  split at hc <;> simp only [Option.some.injEq, reduceCtorEq] at hc <;> subst hc <;> rfl

theorem first_of_comparison_equal {c : Char} {ks : TokenKind × TokenKind} (hc : comparison? c = some ks)
    (cs : List Char) : first c ('=' :: cs) = ⟨.token ks.2 none, [c, '=']⟩ := by
  unfold comparison? at hc
  split at hc <;> simp only [Option.some.injEq, reduceCtorEq] at hc <;> subst hc <;> rfl

theorem first_of_comparison {c : Char} {ks : TokenKind × TokenKind} (hc : comparison? c = some ks)
    {cs : List Char} (h : cs.head? ≠ some '=') : first c cs = ⟨.token ks.1 none, [c]⟩ := by
  have hcs : ∀ ds, cs ≠ '=' :: ds := by
    rintro ds rfl
    simp at h
  unfold comparison? at hc
  split at hc <;> simp only [Option.some.injEq, reduceCtorEq] at hc <;> subst hc <;> unfold first <;>
    simp [isDigit, isLetter, punctuation?, comparison?]

theorem first_of_other {c : Char} (hb : c ∉ [' ', '\r', '\t', '\n']) (hq : c ≠ '"') (hs : c ≠ '/')
    (hd : isDigit c = false) (hl : isLetter c = false) (hp : punctuation? c = none) (hc : comparison? c = none)
    (cs : List Char) : first c cs = ⟨.stray c, [c]⟩ := by
  simp only [List.mem_cons, List.not_mem_nil, or_false, not_or] at hb
  simp [first, hb, hq, hs, hd, hl, hp, hc]

/-! ## Numerals, words and strings with what follows them -/

theorem isDigit_of_mem_fractionDigits {after : List Char} {c : Char} (h : c ∈ fractionDigits after) :
    isDigit c = true := by
  unfold fractionDigits at h
  split at h
  · exact List.all_eq_true.1 List.all_takeWhile c h
  · simp at h

theorem fractionDigits_of_head {after : List Char} (h : after.head? ≠ some '.') : fractionDigits after = [] := by
  unfold fractionDigits
  split
  · simp at h
  · rfl

theorem fractionDigits_point {fraction after : List Char} (hf : ∀ c ∈ fraction, isDigit c = true)
    (ha : ∀ c ∈ after.head?, isDigit c = false) : fractionDigits ('.' :: (fraction ++ after)) = fraction :=
  takeWhile_run hf ha

theorem numeral_append {whole after : List Char} (hw : ∀ c ∈ whole, isDigit c = true)
    (ha : ∀ c ∈ after.head?, isDigit c = false) :
    numeral (whole ++ after) = ⟨.token .number (some (.number (.ofNumeral whole (fractionDigits after)))),
      if (fractionDigits after).isEmpty then whole else whole ++ '.' :: fractionDigits after⟩ := by
  simp only [numeral, takeWhile_run hw ha, dropWhile_run hw ha]

/-- Digits that neither a digit nor a point follows. -/
theorem numeral_integer {whole after : List Char} (hw : ∀ c ∈ whole, isDigit c = true)
    (ha : ∀ c ∈ after.head?, isDigit c = false) (hp : after.head? ≠ some '.') :
    numeral (whole ++ after) = ⟨.token .number (some (.number (.ofNumeral whole []))), whole⟩ := by
  rw [numeral_append hw ha, fractionDigits_of_head hp]
  rfl

/-- Digits, a point and further digits that no digit follows. -/
theorem numeral_decimal {whole fraction after : List Char} (hw : ∀ c ∈ whole, isDigit c = true)
    (hf : ∀ c ∈ fraction, isDigit c = true) (hne : fraction ≠ []) (ha : ∀ c ∈ after.head?, isDigit c = false) :
    numeral (whole ++ '.' :: (fraction ++ after)) =
      ⟨.token .number (some (.number (.ofNumeral whole fraction))), whole ++ '.' :: fraction⟩ := by
  have hp : ∀ c ∈ ('.' :: (fraction ++ after)).head?, isDigit c = false := by
    rintro c ⟨⟩
    rfl
  rw [numeral_append hw hp, fractionDigits_point hf ha]
  simp [hne]

theorem word_append {text after : List Char} (ht : ∀ c ∈ text, isWordCharacter c = true)
    (ha : ∀ c ∈ after.head?, isWordCharacter c = false) :
    word (text ++ after) = ⟨.token ((TokenKind.keyword? (String.ofList text)).getD .identifier) none, text⟩ := by
  simp only [word, takeWhile_run ht ha]

/-- A string up to its closing quote. -/
theorem quoted_closed {body : List Char} (hb : '"' ∉ body) (after : List Char) :
    quoted (body ++ '"' :: after) = ⟨.token .string (some (.str (String.ofList body))), '"' :: body ++ ['"']⟩ := by
  have hr := bne_of_not_mem hb
  have ha : ∀ c ∈ ('"' :: after).head?, (c != '"') = false := by
    rintro c ⟨⟩
    rfl
  simp only [quoted, takeWhile_run hr ha, dropWhile_run hr ha]

/-- A string that is never closed. -/
theorem quoted_open {body : List Char} (hb : '"' ∉ body) : quoted body = ⟨.openString, '"' :: body⟩ := by
  have ht : (body ++ []).takeWhile (· != '"') = body := takeWhile_run (bne_of_not_mem hb) (by simp)
  have hd : (body ++ []).dropWhile (· != '"') = [] := dropWhile_run (bne_of_not_mem hb) (by simp)
  simp only [List.append_nil] at ht hd
  simp only [quoted, ht, hd]

end LoxCalc.Segment
