import LoxCalc.Proofs.Decimal.Spelling

/-!
# LoxCalc.Proofs.Decimal.Displayed — displayed numbers read back, and no two are displayed alike

* `Binary64.toBits?_ofBits`: the bits of a number that is not not-a-number are kept.
* `Magnitude.isWhole_iff`: the test for whole numbers is correct, and a numeral without a point is read as a whole
  number (`Numeral.isWhole_of_fraction_eq_nil`).
* `exists_numeral_display`: so a finite number without a sign is displayed as a numeral that reads as this number and
  has a point iff the number is not whole.
* `isSpelling_display`, `display_injective`: the display is a spelling, so numbers that are displayed alike are equal;
  `display_readsBack` says all of this about bit patterns.
-/

namespace LoxCalc

/-! ## Bit patterns -/

namespace Binary64

variable {bits : UInt64}

/-- A bit pattern that is not one of not-a-number holds a sign and a position. -/
theorem exists_ofBits_eq (h : (ofBits bits).isNaN = false) : ∃ m : Magnitude,
    ofBits bits = .signed (signBit ≤ bits.toNat) m ∧ (if signBit ≤ bits.toNat then signBit else 0) + m.position =
      bits.toNat := by
  have hlt : bits.toNat < 2 * signBit := bits.toNat_lt
  by_cases hk : bits.toNat % signBit ≤ 0x7FF0000000000000
  · refine ⟨⟨_, hk⟩, dif_pos hk, ?_⟩
    by_cases hs : signBit ≤ bits.toNat
    · rw [if_pos hs]
      simp only [signBit] at *
      omega
    · rw [if_neg hs]
      simp only [signBit] at *
      omega
  · have hnan : ofBits bits = .nan := dif_neg hk
    rw [hnan] at h
    cases h

theorem isNaN_of_isFinite {x : Binary64} (h : x.isFinite = true) : x.isNaN = false := by
  cases x with
  | nan => cases h
  | signed s m => rfl

/-- **The bits of a number are kept.** -/
theorem toBits?_ofBits (h : (ofBits bits).isNaN = false) : (ofBits bits).toBits? = some bits := by
  obtain ⟨m, hm, hposition⟩ := exists_ofBits_eq h
  simp only [hm, toBits?, decide_eq_true_eq]
  rw [hposition, UInt64.ofNat_toNat]

end Binary64

/-! ## Whole numbers -/

namespace Magnitude

theorem isWhole_iff_dvd {m : Magnitude} : m.isWhole = true ↔ stepsInOne ∣ m.steps := by
  rw [isWhole, beq_iff_eq, Nat.dvd_iff_mod_eq_zero]

/-- **The test for whole numbers** tells whether the value is one. -/
theorem isWhole_iff {m : Magnitude} : m.isWhole = true ↔ ∃ k : ℤ, m.value = k := by
  rw [isWhole_iff_dvd]
  constructor
  · rintro ⟨k, hk⟩
    refine ⟨k, ?_⟩
    rw [value_eq, hk, Nat.cast_mul, mul_div_cancel_left₀ _ stepsInOne_pos.ne', Int.cast_natCast]
  · rintro ⟨k, hk⟩
    rw [value_eq, div_eq_iff stepsInOne_pos.ne'] at hk
    refine Int.natCast_dvd_natCast.1 ⟨k, ?_⟩
    rw [mul_comm]
    exact_mod_cast hk

end Magnitude

/-- A numeral without a point is read as a whole number. -/
theorem Numeral.isWhole_of_fraction_eq_nil {n : Numeral} {m : Magnitude} (hn : n.number = .signed false m)
    (hfraction : n.fraction = []) : m.isWhole = true := by
  obtain rfl : Magnitude.nearest (Nat.ofDigitChars 10 n.whole 0 * Magnitude.stepsInOne) 1 = m := by
    rw [number, Binary64.ofNumeral, hfraction, List.append_nil] at hn
    exact (Binary64.signed.inj hn).2
  exact Magnitude.isWhole_iff_dvd.2 (Magnitude.stepsInOne_dvd_steps_nearest _)

/-! ## Displayed numbers -/

section Display

variable {m : Magnitude}

/-- **A finite number without a sign is displayed as a numeral** that reads as the number, with a point iff the number
is not whole. -/
theorem exists_numeral_display (hm : m.isInfinite = false) : ∃ n : Numeral,
    (Binary64.signed false m).display = n.text ∧ n.number = .signed false m ∧
      ('.' ∈ n.text.toList ↔ m.isWhole = false) := by
  obtain ⟨whole, fraction, hnum, hval, hwhole⟩ := exists_isNumeral_display hm
  obtain ⟨n, htext, rfl, rfl⟩ := Numeral.exists_of_isNumeral hnum
  refine ⟨n, (String.toList_inj.1 htext).symm, hval, ?_⟩
  rw [Numeral.point_mem_text_iff, ← Bool.not_eq_true]
  exact not_congr ⟨Numeral.isWhole_of_fraction_eq_nil hval, hwhole⟩

/-- A number with a sign is displayed as a minus and the number without. -/
theorem display_signed_true (m : Magnitude) :
    (Binary64.signed true m).display = "-" ++ (Binary64.signed false m).display := rfl

/-- The display of a number is a spelling of it. -/
theorem isSpelling_display (x : Binary64) : x.IsSpelling x.display := by
  have hunsigned (m : Magnitude) : (Binary64.signed false m).IsSpelling (Binary64.signed false m).display := by
    cases hm : m.isInfinite with
    | true =>
      obtain rfl := Magnitude.eq_infinity hm
      exact .infinity (by decide)
    | false =>
      obtain ⟨n, htext, hn, -⟩ := exists_numeral_display hm
      rw [htext]
      exact .numeral n hm hn
  cases x with
  | nan => exact .nan
  | signed s m => exact (hunsigned m).signed s

/-- **Numbers that are displayed alike are equal**, not-a-number included. -/
theorem display_injective {x y : Binary64} (h : x.display = y.display) : x = y :=
  (isSpelling_display x).unique (h ▸ isSpelling_display y)

/-- **Displayed numbers read back.**  A finite number whose sign bit is clear is displayed as a numeral, with a point
iff the number is not whole; the scanner finds this one number in it, with the bits of the number displayed, and no
error.  If the sign bit is set, a minus stands in front of the display of the opposite number.  Of all patterns that are
not not-a-number no two are displayed alike. -/
theorem display_readsBack :
    (∀ bits : UInt64, (Binary64.ofBits bits).isFinite = true → bits.toNat < Binary64.signBit →
      ∃ (n : Numeral) (x : Binary64), (Value.number (.ofBits bits)).display = n.text ∧
        ('.' ∈ n.text.toList ↔ ¬ ∃ k : ℤ, (Binary64.ofBits bits).value = k) ∧
        scan n.text = ⟨[⟨.number, n.text, some (.number x), 1⟩, .eof 1], []⟩ ∧ x.toBits? = some bits) ∧
    (∀ bits : UInt64, (Binary64.ofBits bits).isFinite = true → Binary64.signBit ≤ bits.toNat →
      (Value.number (.ofBits bits)).display = "-" ++ (Value.number (-.ofBits bits)).display) ∧
    ∀ bits bits' : UInt64, (Binary64.ofBits bits).isNaN = false → (Binary64.ofBits bits').isNaN = false →
      (Value.number (.ofBits bits)).display = (Value.number (.ofBits bits')).display → bits = bits' := by
  refine ⟨?_, ?_, ?_⟩
  · intro bits hfinite hsign
    have hnan := Binary64.isNaN_of_isFinite hfinite
    have hbits := Binary64.toBits?_ofBits hnan
    obtain ⟨m, hm, -⟩ := Binary64.exists_ofBits_eq hnan
    rw [decide_eq_false (Nat.not_le.2 hsign)] at hm
    rw [hm] at hfinite hbits ⊢
    obtain ⟨n, htext, hn, hpoint⟩ := exists_numeral_display (by simpa [Binary64.isFinite] using hfinite)
    refine ⟨n, n.number, htext, ?_, n.scan_text, by rw [hn, hbits]⟩
    rw [hpoint, ← Bool.not_eq_true, Magnitude.isWhole_iff]
    rfl
  · intro bits hfinite hsign
    obtain ⟨m, hm, -⟩ := Binary64.exists_ofBits_eq (Binary64.isNaN_of_isFinite hfinite)
    rw [decide_eq_true hsign] at hm
    rw [hm]
    exact display_signed_true m
  · intro bits bits' h h' heq
    have hnumber := display_injective heq
    have hbits := Binary64.toBits?_ofBits h
    rw [hnumber, Binary64.toBits?_ofBits h'] at hbits
    exact (Option.some.inj hbits).symm

example : (Binary64.ofBits 0x3FB999999999999A).display = "0.1" := by decide +kernel

end Display

end LoxCalc
