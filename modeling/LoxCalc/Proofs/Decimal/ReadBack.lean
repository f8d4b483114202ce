import LoxCalc.Value
import LoxCalc.Proofs.Binary64.Nearest
import LoxCalc.Proofs.Token.Segmentation

/-!
# LoxCalc.Proofs.Decimal.ReadBack — a displayed number is a numeral that reads back

* `nearest_of_contains`: every number of the rounding interval of a magnitude rounds to it.
* `coarsest_contains`: the decimal that the search for the fewest digits ends with lies in the interval, and so does the
  decimal of fewest digits (`exists_shortest`).
* `exists_isNumeral_positional`: a decimal written out is digits, or digits, a point and digits, of the same value.
* `exists_isNumeral_display`, `form_display`: so the text of a finite number without a sign is one numeral, and its
  value is that number.
-/

namespace LoxCalc

/-! ## Rounding intervals -/

namespace Magnitude

theorem pow_five_pos (n : Nat) : 0 < Nat.pow 5 n := Nat.pow_pos (by decide)

theorem pow_two_mul_pow_five (n : Nat) : Nat.pow 2 n * Nat.pow 5 n = Nat.pow 10 n := (Nat.mul_pow 2 5 n).symm

theorem unitsInStep_pos : 0 < unitsInStep := by
  rw [unitsInStep]
  exact pow_five_pos _

/-- One is `10 ^ 1074` units. -/
theorem stepsInOne_mul_unitsInStep : stepsInOne * unitsInStep = Nat.pow 10 1074 := by
  rw [stepsInOne, unitsInStep, pow_two_mul_pow_five]

/-- **All numbers of the interval round to the magnitude**: `x` units are `num / den` steps. -/
theorem nearest_of_contains {m : Magnitude} {x num den : Nat} (hden : 0 < den)
    (hx : m.interval.contains x = true) (h : num * unitsInStep = x * den) : nearest num den = m := by
  have hscale (a : Nat) : a * den * unitsInStep = a * unitsInStep * den := Nat.mul_right_comm ..
  have htwice : 2 * num * unitsInStep = 2 * x * den := by rw [Nat.mul_assoc, h, Nat.mul_assoc]
  have hlow (a : Nat) : a * unitsInStep ≤ 2 * x ↔ a * den ≤ 2 * num := by
    rw [← Nat.mul_le_mul_right_iff hden, ← hscale, ← htwice, Nat.mul_le_mul_right_iff unitsInStep_pos]
  have hhigh (a : Nat) : 2 * x ≤ a * unitsInStep ↔ 2 * num ≤ a * den := by
    rw [← Nat.mul_le_mul_right_iff hden, ← hscale, ← htwice, Nat.mul_le_mul_right_iff unitsInStep_pos]
  by_cases hm : m.position % 2 = 0
  · -- the ends belong to the interval
    simp only [RoundingInterval.contains, interval, hm, beq_self_eq_true, if_true, Bool.and_eq_true,
      decide_eq_true_eq] at hx
    exact nearest_eq hden ((hlow _).1 hx.1) ((hhigh _).1 hx.2) (fun hodd => by omega)
  · have hclosed : (m.position % 2 == 0) = false := by simpa using hm
    simp only [RoundingInterval.contains, interval, hclosed, Bool.false_eq_true, if_false, Bool.and_eq_true,
      decide_eq_true_eq] at hx
    have h1 := mt (hhigh _).2 (Nat.not_le.2 hx.1)
    have h2 := mt (hlow _).2 (Nat.not_le.2 hx.2)
    exact nearest_eq hden (by omega) (by omega) (fun _ => by omega)

theorem contains_centre (m : Magnitude) : m.interval.contains m.interval.centre = true := by
  have hnext : m.steps < stepsAt (m.position + 1) := stepsAt_lt_succ m.position
  have hprev : stepsAt (m.position - 1) ≤ m.steps := stepsAt_strictMono.monotone (Nat.sub_le _ 1)
  have hodd : m.position % 2 ≠ 0 → stepsAt (m.position - 1) < m.steps := fun hm =>
    stepsAt_strictMono (by omega)
  have hmul (a b : Nat) : a * unitsInStep ≤ b * unitsInStep ↔ a ≤ b := Nat.mul_le_mul_right_iff unitsInStep_pos
  have htwice : 2 * (m.steps * unitsInStep) = (m.steps + m.steps) * unitsInStep := by
    rw [Nat.add_mul, Nat.two_mul]
  simp only [RoundingInterval.contains, interval, htwice]
  split
  · simp only [Bool.and_eq_true, decide_eq_true_eq, hmul]
    omega
  · rename_i hm
    have := hodd (by simpa using hm)
    simp only [Bool.and_eq_true, decide_eq_true_eq, ← Nat.not_le, hmul]
    omega

end Magnitude

namespace RoundingInterval

variable {i : RoundingInterval}

theorem lowTwice_le_of_contains {x : Nat} (h : i.contains x = true) : i.lowTwice ≤ 2 * x := by
  rw [contains] at h
  cases hclosed : i.closed <;> simp [hclosed] at h <;> omega

theorem contains_of_nearestMultiple? {tie : TieRule} {step k : Nat} (h : i.nearestMultiple? tie step = some k) :
    i.contains (k * step) = true := by
  simp only [nearestMultiple?] at h
  split at h
  · simp at h
  · rename_i hb _
    obtain rfl := Option.some.inj h
    exact hb
  · rename_i _ ha
    obtain rfl := Option.some.inj h
    exact ha
  · rename_i hb ha
    -- both neighbours lie in the interval, whichever is taken
    have hk : k = i.centre / step ∨ k = i.centre / step + 1 := by
      split at h
      · exact .inl (Option.some.inj h).symm
      · exact .inr (Option.some.inj h).symm
      · split at h
        · exact .inr (Option.some.inj h).symm
        · obtain rfl := Option.some.inj h
          split
          · exact .inl rfl
          · exact .inr rfl
    rcases hk with rfl | rfl
    · exact hb
    · exact ha

/-- **The search ends in the interval**, if the centre lies there. -/
theorem coarsest_contains (tie : TieRule) (hi : i.contains i.centre = true) : ∀ n : Nat,
    ∃ k p : Nat, i.coarsest tie n = ⟨k, p - 1074⟩ ∧ i.contains (k * Nat.pow 10 p) = true
  | 0 => ⟨i.centre, 0, rfl, by rw [show Nat.pow 10 0 = 1 from rfl, Nat.mul_one]; exact hi⟩
  | n + 1 => by
    rw [coarsest]
    split
    · rename_i k hk
      exact ⟨k, n + 1, rfl, contains_of_nearestMultiple? hk⟩
    · exact coarsest_contains tie hi n

end RoundingInterval

/-- **The decimal of fewest digits lies in the interval**; it is zero for zero alone. -/
theorem Magnitude.exists_shortest (m : Magnitude) (tie : TieRule) : ∃ k p : Nat,
    m.shortest tie = ⟨k, p - 1074⟩ ∧ m.interval.contains (k * Nat.pow 10 p) = true ∧ (k = 0 → p = 1074) := by
  rw [shortest]
  split
  · rename_i hz
    have hposition : m.position = 0 := by simpa [isZero] using hz
    have hcentre : m.interval.centre = 0 := by
      rw [interval, steps, hposition, stepsAt_of_lt (by decide), Nat.zero_mul]
    have hcontains := m.contains_centre
    rw [hcentre] at hcontains
    exact ⟨0, 1074, rfl, by rwa [Nat.zero_mul], fun _ => rfl⟩
  · rename_i hz
    have hposition : 0 < m.position := by
      rw [isZero, beq_iff_eq] at hz
      omega
    have hsteps : 0 < m.steps := Nat.lt_of_le_of_lt (Nat.zero_le _) (stepsAt_strictMono hposition)
    have hlow : 0 < (stepsAt (m.position - 1) + m.steps) * unitsInStep := Nat.mul_pos (by omega) unitsInStep_pos
    obtain ⟨k, p, hdecimal, hcontains⟩ :=
      RoundingInterval.coarsest_contains tie m.contains_centre ((m.interval.centre.log2 / 93 + 1) * 28)
    refine ⟨k, p, hdecimal, hcontains, ?_⟩
    rintro rfl
    -- zero lies below the interval
    rw [Nat.zero_mul] at hcontains
    exact absurd (RoundingInterval.lowTwice_le_of_contains hcontains) (Nat.not_le.2 hlow)

/-! ## Numerals -/

section Numerals

open Segment

theorem isDigit_eq (c : Char) : isDigit c = c.isDigit := by
  simp only [isDigit, Char.isDigit, Char.le_def, ge_iff_le]

theorem isDigit_of_mem_toDigits {n : Nat} {c : Char} (h : c ∈ Nat.toDigits 10 n) : isDigit c = true := by
  rw [isDigit_eq]
  exact Nat.isDigit_of_mem_toDigits (by decide) (by decide) h

theorem isDigit_of_mem_replicate {n : Nat} {c : Char} (h : c ∈ List.replicate n '0') : isDigit c = true := by
  obtain rfl := List.eq_of_mem_replicate h
  rfl

/-- The text of the numeral with these digits before and after the point, which is left out if none follow. -/
structure IsNumeral (text whole fraction : List Char) : Prop where
  text_eq : text = if fraction.isEmpty then whole else whole ++ '.' :: fraction
  whole_ne_nil : whole ≠ []
  digits : ∀ c ∈ whole ++ fraction, isDigit c = true

theorem IsNumeral.form {text whole fraction : List Char} (h : IsNumeral text whole fraction) :
    Form (.token .number (some (.number (.ofNumeral whole fraction)))) text := by
  have hw : ∀ c ∈ whole, isDigit c = true := fun c hc => h.digits c (List.mem_append_left _ hc)
  have hf : ∀ c ∈ fraction, isDigit c = true := fun c hc => h.digits c (List.mem_append_right _ hc)
  rw [h.text_eq]
  by_cases hne : fraction = []
  · subst hne
    exact .integer h.whole_ne_nil hw
  · rw [if_neg (by simpa using hne)]
    exact .decimal h.whole_ne_nil hw hne hf

section Positional

variable (k : Nat)

theorem ofDigitChars_toDigits_append (zeros : Nat) :
    Nat.ofDigitChars 10 (Nat.toDigits 10 k ++ List.replicate zeros '0') 0 = k * Nat.pow 10 zeros := by
  rw [Nat.ofDigitChars_append, Nat.ofDigitChars_ten_toDigits, Nat.ofDigitChars_replicate_zero, Nat.mul_comm]
  rfl

theorem ofDigitChars_append_toDigits (zeros : Nat) :
    Nat.ofDigitChars 10 (List.replicate zeros '0' ++ Nat.toDigits 10 k) 0 = k := by
  rw [Nat.ofDigitChars_append, Nat.ofDigitChars_replicate_zero, Nat.mul_zero, Nat.ofDigitChars_ten_toDigits]

/-- A decimal without an exponent below zero is written with zeros up to the unit. -/
theorem isNumeral_positional_ofNat (zeros : Nat) :
    IsNumeral (⟨k, .ofNat zeros⟩ : Decimal).positional (Nat.toDigits 10 k ++ List.replicate zeros '0') [] where
  text_eq := rfl
  whole_ne_nil := by simp [Nat.toDigits_ne_nil]
  digits c hc := by
    rw [List.append_nil] at hc
    exact (List.mem_append.1 hc).elim isDigit_of_mem_toDigits isDigit_of_mem_replicate

/-- A decimal with an exponent below zero is written with a point before that many digits; in front of it stand the
first digits, or a lone zero. -/
theorem exists_isNumeral_positional_negSucc (n : Nat) : ∃ whole fraction : List Char,
    IsNumeral (⟨k, .negSucc n⟩ : Decimal).positional whole fraction ∧ fraction.length = n + 1 ∧
      Nat.ofDigitChars 10 (whole ++ fraction) 0 = k ∧ (whole = ['0'] ∨ whole <+: Nat.toDigits 10 k) := by
  generalize hpad : List.replicate (n + 1 + 1 - (Nat.toDigits 10 k).length) '0' ++ Nat.toDigits 10 k = padded
  have hlen : n + 1 < padded.length := by
    rw [← hpad, List.length_append, List.length_replicate]
    omega
  have hfrac : (padded.drop (padded.length - (n + 1))).length = n + 1 := by
    rw [List.length_drop]
    omega
  refine ⟨padded.take (padded.length - (n + 1)), padded.drop (padded.length - (n + 1)), ⟨?_, ?_, ?_⟩, hfrac, ?_, ?_⟩
  · rw [if_neg (by rw [List.isEmpty_iff, ← List.length_eq_zero_iff]; omega), ← hpad]
    rfl
  · rw [← List.length_pos_iff, List.length_take]
    omega
  · intro c hc
    rw [List.take_append_drop, ← hpad] at hc
    exact (List.mem_append.1 hc).elim isDigit_of_mem_replicate isDigit_of_mem_toDigits
  · rw [List.take_append_drop, ← hpad]
    exact ofDigitChars_append_toDigits k _
  · rcases Nat.lt_or_ge (n + 1) (Nat.toDigits 10 k).length with hlong | hshort
    · rw [Nat.sub_eq_zero_of_le hlong, List.replicate_zero, List.nil_append] at hpad
      exact .inr (hpad ▸ List.take_prefix _ _)
    · obtain ⟨zeros, hzeros⟩ := Nat.exists_eq_add_of_le' (Nat.sub_pos_of_lt (Nat.lt_succ_of_le hshort))
      have hone : padded.length - (n + 1) = 1 := by
        rw [← hpad, List.length_append, List.length_replicate]
        omega
      rw [hone, ← hpad, hzeros, List.replicate_succ]
      exact .inl rfl

/-- **A decimal of units written out** is a numeral of the same value. -/
theorem exists_isNumeral_positional (p : Nat) : ∃ whole fraction : List Char,
    IsNumeral (⟨k, p - 1074⟩ : Decimal).positional whole fraction ∧
    Nat.ofDigitChars 10 (whole ++ fraction) 0 * Nat.pow 10 1074 = k * Nat.pow 10 p * Nat.pow 10 fraction.length := by
  have hadd (a b : Nat) : Nat.pow 10 (a + b) = Nat.pow 10 a * Nat.pow 10 b := Nat.pow_add 10 a b
  cases he : (p : Int) - 1074 with
  | ofNat zeros =>
    obtain rfl : p = zeros + 1074 := by
      simp only [Int.ofNat_eq_natCast] at he
      omega
    refine ⟨_, [], isNumeral_positional_ofNat k zeros, ?_⟩
    rw [List.append_nil, ofDigitChars_toDigits_append, hadd, Nat.mul_assoc]
    exact (Nat.mul_one _).symm
  | negSucc n =>
    have hp : p + (n + 1) = 1074 := by
      rw [Int.negSucc_eq] at he
      omega
    obtain ⟨whole, fraction, hnum, hlen, hval, -⟩ := exists_isNumeral_positional_negSucc k n
    refine ⟨whole, fraction, hnum, ?_⟩
    rw [hval, hlen, Nat.mul_assoc, ← hadd, hp]

end Positional

/-- The numeral of a number of the interval reads as the magnitude. -/
theorem ofNumeral_of_contains {m : Magnitude} {whole fraction : List Char} {x : Nat}
    (hx : m.interval.contains x = true)
    (h : Nat.ofDigitChars 10 (whole ++ fraction) 0 * Nat.pow 10 1074 = x * Nat.pow 10 fraction.length) :
    Binary64.ofNumeral whole fraction = .signed false m := by
  have hden : 0 < Nat.pow 10 fraction.length := Nat.pow_pos (by decide)
  rw [Binary64.ofNumeral, Magnitude.nearest_of_contains hden hx]
  rw [Nat.mul_assoc, Magnitude.stepsInOne_mul_unitsInStep, h]

/-- A numeral without a point that stands for `2 ^ 1024` or more reads as infinity. -/
theorem ofNumeral_of_large {whole : List Char} (h : Nat.pow 2 1024 ≤ Nat.ofDigitChars 10 whole 0) :
    Binary64.ofNumeral whole [] = .signed false .infinity := by
  have hone : Nat.pow 10 ([] : List Char).length = 1 := rfl
  have hmul : Magnitude.infinity.steps * 1 ≤ Nat.ofDigitChars 10 whole 0 * Magnitude.stepsInOne := by
    rw [Nat.mul_one, Magnitude.steps_infinity]
    exact Nat.mul_le_mul_right _ h
  rw [Binary64.ofNumeral, List.append_nil, hone]
  exact congrArg (Binary64.signed false) (Magnitude.nearest_eq_infinity Nat.one_pos hmul)

/-- The numeral of a power of ten. -/
def tenToThe (n : Nat) : List Char := '1' :: List.replicate n '0'

theorem isDigit_of_mem_tenToThe {n : Nat} {c : Char} (h : c ∈ tenToThe n) : isDigit c = true := by
  rcases List.mem_cons.1 h with rfl | h
  · rfl
  · exact isDigit_of_mem_replicate h

theorem ofNumeral_tenToThe {n : Nat} (hn : 1024 ≤ n) :
    Binary64.ofNumeral (tenToThe n) [] = .signed false .infinity := by
  have hval : Nat.ofDigitChars 10 (tenToThe n) 0 = Nat.pow 10 n := by
    rw [tenToThe, Nat.ofDigitChars_cons, Nat.ofDigitChars_replicate_zero]
    exact Nat.mul_one _
  have hpow (k : Nat) (hk : k ≤ n) : Nat.pow 2 k ≤ Nat.pow 10 n :=
    Nat.le_trans (Nat.pow_le_pow_right (by decide) hk) (Nat.pow_le_pow_left (by decide) n)
  refine ofNumeral_of_large ?_
  rw [hval]
  exact hpow _ hn

/-- **The fewest digits are a numeral** that reads as the number. -/
theorem exists_isNumeral_shortest (m : Magnitude) (tie : TieRule) : ∃ whole fraction : List Char,
    IsNumeral (m.shortest tie).positional whole fraction ∧ Binary64.ofNumeral whole fraction = .signed false m := by
  obtain ⟨k, p, hdecimal, hcontains, -⟩ := m.exists_shortest tie
  obtain ⟨whole, fraction, hnum, hval⟩ := exists_isNumeral_positional k p
  rw [hdecimal]
  exact ⟨whole, fraction, hnum, ofNumeral_of_contains hcontains hval⟩

/-- **The text of a finite number without a sign is a numeral** that reads as the number, without a point if the number
is whole. -/
theorem exists_isNumeral_display {m : Magnitude} (hm : m.isInfinite = false) : ∃ whole fraction : List Char,
    IsNumeral (Binary64.display (.signed false m)).toList whole fraction ∧
      Binary64.ofNumeral whole fraction = .signed false m ∧ (m.isWhole = true → fraction = []) := by
  simp only [Binary64.display, hm, Bool.false_eq_true, if_false]
  by_cases hw : m.isWhole = true
  · have hsteps : m.wholePart * Magnitude.stepsInOne = m.steps :=
      Nat.div_mul_cancel (Nat.dvd_of_mod_eq_zero (by simpa [Magnitude.isWhole] using hw))
    rw [if_pos hw, String.toList_ofList]
    refine ⟨Nat.toDigits 10 m.wholePart, [], ⟨rfl, Nat.toDigits_ne_nil, ?_⟩, ?_, fun _ => rfl⟩
    · rw [List.append_nil]
      exact fun _ => isDigit_of_mem_toDigits
    · refine ofNumeral_of_contains m.contains_centre ?_
      rw [List.append_nil, Nat.ofDigitChars_ten_toDigits, ← Magnitude.stepsInOne_mul_unitsInStep, ← Nat.mul_assoc,
        hsteps]
      exact (Nat.mul_one _).symm
  · obtain ⟨whole, fraction, hnum, hval⟩ := exists_isNumeral_shortest m .up
    rw [if_neg hw, String.toList_ofList]
    exact ⟨whole, fraction, hnum, hval, fun h => absurd h hw⟩

/-- **A finite number without a sign reads back**: its text is one numeral, whose value is the number. -/
theorem form_display {m : Magnitude} (hm : m.isInfinite = false) :
    Form (.token .number (some (.number (.signed false m)))) (Binary64.display (.signed false m)).toList := by
  obtain ⟨whole, fraction, hnum, hval, -⟩ := exists_isNumeral_display hm
  have h := hnum.form
  rwa [hval] at h

end Numerals

end LoxCalc
