import LoxCalc.Proofs.Binary64.Rounding
import LoxCalc.Proofs.Decimal.ReadBack
import LoxCalc.Proofs.Text.Words
import LoxCalc.Proofs.Token.Written

/-!
# LoxCalc.Proofs.Decimal.Numerals — numerals are read as the numbers nearest to them

A `Numeral` is what the scanner takes for a number: digits, or digits, a point and digits, as many as there are.  Its
value is a rational number.

* `scan_text`: the text of a numeral is scanned to one number; `exists_numeral`: the numbers of any text are numerals.
* `isRounding_number`: the number is the rounding of the value.  So it depends on the value alone (`number_congr`), and
  on this monotonically (`le_number`); `numeral_rounding` puts this together.
-/

namespace LoxCalc

open Segment

/-- Digits, and behind a point further digits or nothing. -/
structure Numeral where
  whole : List Char
  fraction : List Char
  whole_ne_nil : whole ≠ []
  digits : ∀ c ∈ whole ++ fraction, isDigit c = true

namespace Numeral

/-- The text of a numeral, with a point only if digits follow. -/
def text (n : Numeral) : String :=
  .ofList (if n.fraction.isEmpty then n.whole else n.whole ++ '.' :: n.fraction)

/-- The exact value of a numeral. -/
def value (n : Numeral) : ℚ :=
  Nat.ofDigitChars 10 n.whole 0 + Nat.ofDigitChars 10 n.fraction 0 / 10 ^ n.fraction.length

/-- The number a numeral is read as. -/
def number (n : Numeral) : Binary64 := .ofNumeral n.whole n.fraction

/-- The numeral with zeros in front of it and at the end of its fraction. -/
def padded (n : Numeral) (front back : Nat) : Numeral where
  whole := List.replicate front '0' ++ n.whole
  fraction := n.fraction ++ List.replicate back '0'
  whole_ne_nil := by simp [n.whole_ne_nil]
  digits c hc := by
    simp only [List.mem_append] at hc
    rcases hc with (hc | hc) | (hc | hc)
    · exact isDigit_of_mem_replicate hc
    · exact n.digits c (List.mem_append_left _ hc)
    · exact n.digits c (List.mem_append_right _ hc)
    · exact isDigit_of_mem_replicate hc

/-! ## Texts -/

theorem isNumeral (n : Numeral) : IsNumeral n.text.toList n.whole n.fraction where
  text_eq := String.toList_ofList
  whole_ne_nil := n.whole_ne_nil
  digits := n.digits

theorem form (n : Numeral) : Form (.token .number (some (.number n.number))) n.text.toList := n.isNumeral.form

/-- The text of digits, and of digits, a point and digits, is the one of a numeral. -/
theorem exists_of_isNumeral {text whole fraction : List Char} (h : IsNumeral text whole fraction) :
    ∃ n : Numeral, n.text.toList = text ∧ n.whole = whole ∧ n.fraction = fraction :=
  ⟨⟨whole, fraction, h.whole_ne_nil, h.digits⟩, (isNumeral _).text_eq.trans h.text_eq.symm, rfl, rfl⟩

/-- What is said of all digits and the point is said of a numeral's text. -/
theorem forall_mem_text {P : Char → Prop} (hdigit : ∀ c, isDigit c = true → P c) (hpoint : P '.') (n : Numeral) :
    ∀ c ∈ n.text.toList, P c := by
  have hdigits (c : Char) (hc : c ∈ n.whole ++ n.fraction) : P c := hdigit c (n.digits c hc)
  intro c hc
  rw [n.isNumeral.text_eq] at hc
  split at hc
  · exact hdigits c (List.mem_append_left _ hc)
  · rw [List.mem_append, List.mem_cons] at hc
    rcases hc with hc | rfl | hc
    · exact hdigits c (List.mem_append_left _ hc)
    · exact hpoint
    · exact hdigits c (List.mem_append_right _ hc)

theorem newline_not_mem_text (n : Numeral) : '\n' ∉ n.text.toList := by
  have hne := n.forall_mem_text (P := (· ≠ '\n')) (by rintro c hc rfl; cases hc) (by decide)
  exact fun h => hne _ h rfl

/-- The text of a numeral has a point iff digits follow one. -/
theorem point_mem_text_iff (n : Numeral) : '.' ∈ n.text.toList ↔ n.fraction ≠ [] := by
  rw [n.isNumeral.text_eq]
  split
  · rename_i h
    have hfraction : n.fraction = [] := by simpa using h
    exact ⟨fun hmem => absurd (n.digits _ (List.mem_append_left _ hmem)) (by decide), fun hne => absurd hfraction hne⟩
  · rename_i h
    exact ⟨fun _ => by simpa using h, fun _ => by simp⟩

/-- **The text of a numeral is one number** for the scanner, and nothing else. -/
theorem scan_text (n : Numeral) :
    scan n.text = ⟨[⟨.number, n.text, some (.number n.number), 1⟩, .eof 1], []⟩ := by
  obtain ⟨c, cs, hc⟩ := List.exists_cons_of_ne_nil n.form.ne_nil
  have hfirst : first c (cs ++ []) = ⟨.token .number (some (.number n.number)), n.text.toList⟩ := by
    rw [List.append_nil, hc]
    exact (hc ▸ n.form).first_eq
  have hseg : ofText n.text.toList = [⟨.token .number (some (.number n.number)), n.text.toList⟩] := by
    have h := ofText_of_first hfirst hc
    rwa [List.append_nil, ← hc, ofText] at h
  have hline : Scan.lineAfter 1 n.text.toList = 1 := by
    rw [Scan.lineAfter, List.count_eq_zero.2 n.newline_not_mem_text]
  rw [scan, hseg, Scan.ofSegments, hline, Scan.ofSegments, Scan.report, String.ofList_toList]

/-- The text of a numeral says where its point is, and so which numeral it is. -/
theorem text_inj {n n' : Numeral} (h : n.text = n'.text) : n = n' := by
  have hpoint (n : Numeral) : '.' ∉ n.whole := fun hmem => absurd (n.digits _ (List.mem_append_left _ hmem)) (by decide)
  have hfraction : n.fraction ≠ [] ↔ n'.fraction ≠ [] := by rw [← point_mem_text_iff, h, point_mem_text_iff]
  have hparts : n.whole = n'.whole ∧ n.fraction = n'.fraction := by
    have htext := congrArg String.toList h
    rw [n.isNumeral.text_eq, n'.isNumeral.text_eq] at htext
    by_cases hempty : n.fraction = []
    · have hempty' : n'.fraction = [] := by simpa [hempty] using hfraction
      rw [hempty, hempty'] at htext ⊢
      exact ⟨htext, rfl⟩
    · rw [if_neg (by simpa using hempty), if_neg (by simpa using hfraction.1 hempty)] at htext
      exact delimited_inj (hpoint n) (hpoint n') htext
  cases n
  cases n'
  obtain ⟨rfl, rfl⟩ := hparts
  rfl

/-- **Numbers are numerals**: a number that the scanner finds in a text has the text of a numeral and its number. -/
theorem exists_numeral {source : String} {t : Token} (ht : t ∈ (scan source).tokens) (hk : t.kind = .number) :
    ∃ n : Numeral, t.lexeme = n.text ∧ t.literal = some (.number n.number) := by
  have h := form_of_mem_tokens ht (by rw [hk]; decide)
  rw [hk] at h
  generalize hl : t.lexeme.toList = lexeme at h
  have htext : t.lexeme = .ofList lexeme := by rw [← hl, String.ofList_toList]
  generalize t.literal = literal at h
  cases h with
  | fixed h => exact absurd rfl (fixedTexts_kind h).2.1
  | reserved _ _ hk => exact absurd rfl (keyword_kind hk).2.1
  | integer hne hw => exact ⟨⟨_, [], hne, by simpa using hw⟩, htext, rfl⟩
  | @decimal whole fraction hne hw hne' hf =>
    refine ⟨⟨whole, fraction, hne, List.forall_mem_append.2 ⟨hw, hf⟩⟩, ?_, rfl⟩
    rw [htext, text, if_neg (by simpa using hne')]

/-! ## Values -/

theorem ofDigitChars_zeros (a : Nat) (cs : List Char) :
    Nat.ofDigitChars 10 (List.replicate a '0' ++ cs) 0 = Nat.ofDigitChars 10 cs 0 := by
  rw [Nat.ofDigitChars_append, Nat.ofDigitChars_replicate_zero, Nat.mul_zero]

theorem pow_ten_pos (k : Nat) : (0 : ℚ) < 10 ^ k := by positivity

/-- The value of a numeral are its digits without the point, divided by a power of ten. -/
theorem value_eq (n : Numeral) :
    n.value = Nat.ofDigitChars 10 (n.whole ++ n.fraction) 0 / 10 ^ n.fraction.length := by
  rw [Nat.ofDigitChars_append, Nat.ofDigitChars_eq_ofDigitChars_zero, Nat.cast_add, Nat.cast_mul, Nat.cast_pow,
    Nat.cast_ofNat, add_div, mul_div_cancel_left₀ _ (pow_ten_pos _).ne', value]

/-- Zeros in front and at the end of the fraction do not change the value. -/
theorem value_padded (n : Numeral) (front back : Nat) : (n.padded front back).value = n.value := by
  have hfraction : Nat.ofDigitChars 10 (n.fraction ++ List.replicate back '0') 0 =
      10 ^ back * Nat.ofDigitChars 10 n.fraction 0 := by
    rw [Nat.ofDigitChars_append, Nat.ofDigitChars_replicate_zero]
  rw [value, value, padded, ofDigitChars_zeros, hfraction, List.length_append, List.length_replicate, pow_add,
    Nat.cast_mul, Nat.cast_pow, Nat.cast_ofNat, mul_comm, mul_div_mul_right _ _ (pow_ten_pos _).ne']

/-! ## Rounding -/

/-- **A numeral is read as the rounding of its value.** -/
theorem isRounding_number (n : Numeral) :
    ∃ m : Magnitude, n.number = .signed false m ∧ m.IsRounding n.value := by
  refine ⟨_, rfl, Magnitude.isRounding_nearest (Nat.pow_pos (by decide)) ?_⟩
  rw [value_eq, Nat.pow_eq, Nat.cast_mul, Nat.cast_pow, Nat.cast_ofNat, div_mul_eq_mul_div]

/-- The number depends on the value alone. -/
theorem number_congr {n n' : Numeral} (h : n.value = n'.value) : n.number = n'.number := by
  obtain ⟨m, hm, hround⟩ := n.isRounding_number
  obtain ⟨m', hm', hround'⟩ := n'.isRounding_number
  rw [h] at hround
  rw [hm, hm', hround.unique hround']

/-- Numerals of greater values are read as greater numbers. -/
theorem le_number {n n' : Numeral} (h : n.value ≤ n'.value) : n.number.le n'.number = true := by
  obtain ⟨m, hm, hround⟩ := n.isRounding_number
  obtain ⟨m', hm', hround'⟩ := n'.isRounding_number
  have hsteps : m.steps ≤ m'.steps := Magnitude.stepsAt_strictMono.monotone (hround.mono hround' h)
  rw [hm, hm']
  simpa [Binary64.le, Binary64.steps?] using hsteps

/-- **Numbers are read correctly rounded.**  The numbers that the scanner finds in a text are the numerals: each is one,
and the text of any numeral is scanned to this one number and no error.  The number has no sign and is the one correct
rounding of the value of the numeral: the nearest of all finite numbers, of two the one with an even significand, and
infinity from `2 ^ 1024 - 2 ^ 970` on.  Zeros in front of a numeral and at the end of its fraction do not change the
number, and greater values give greater numbers. -/
theorem numeral_rounding :
    (∀ source, ∀ t ∈ (scan source).tokens, t.kind = .number →
      ∃ n : Numeral, t.lexeme = n.text ∧ t.literal = some (.number n.number)) ∧
    ∀ n : Numeral,
      scan n.text = ⟨[⟨.number, n.text, some (.number n.number), 1⟩, .eof 1], []⟩ ∧
      (∃ m : Magnitude, n.number = .signed false m ∧ ∀ m' : Magnitude, m'.IsRounding n.value ↔ m' = m) ∧
      (∀ front back, (n.padded front back).number = n.number) ∧
      ∀ n' : Numeral, n.value ≤ n'.value → n.number.le n'.number = true := by
  constructor
  · intro source t
    exact exists_numeral
  · intro n
    refine ⟨n.scan_text, ?_, ?_, ?_⟩
    · obtain ⟨m, hm, hround⟩ := n.isRounding_number
      refine ⟨m, hm, fun m' => ⟨fun h => h.unique hround, ?_⟩⟩
      rintro rfl
      exact hround
    · intro front back
      exact number_congr (n.value_padded front back)
    · intro n'
      exact le_number

end Numeral

/-- Halfway between two numbers, the one with an even significand. -/
example : Binary64.ofNumeral "9007199254740993".toList [] = .ofNumeral "9007199254740992".toList [] := by
  decide +kernel

end LoxCalc
