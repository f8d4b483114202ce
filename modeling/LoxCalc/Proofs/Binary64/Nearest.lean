import LoxCalc.Binary64.Magnitude
import Mathlib.Order.Monotone.Basic

/-!
# LoxCalc.Proofs.Binary64.Nearest — rounding finds the magnitude whose interval holds the quotient

* `stepsAt_block`: the positions from `e * binade` on measure multiples of `2 ^ e` steps, so `stepsAt` is strictly
  increasing (`stepsAt_strictMono`).
* `positionBelow_spec`: `positionBelow q` is the position between whose magnitude and the next `q` lies.
* `nearest_eq`: a quotient between the two midpoints next to a magnitude rounds to it, at a midpoint if its position is
  even; `nearest_eq_infinity`: from `2 ^ 1024` on a quotient rounds to infinity.
* `stepsInOne_dvd_steps_nearest`: a whole number rounds to a whole number.
-/

namespace LoxCalc.Magnitude

/-! ## Blocks of equal spacing -/

section Blocks

variable {e t : Nat}

/-- **A block of positions**: from `e * binade` on they measure multiples of `2 ^ e`. -/
theorem stepsAt_block (ht : t ≤ 2 * binade) (he : e = 0 ∨ binade ≤ t) :
    stepsAt (e * binade + t) = t * Nat.pow 2 e := by
  rcases Nat.lt_or_ge t binade with hlt | hge
  · obtain rfl : e = 0 := by omega
    rw [Nat.zero_mul, Nat.zero_add, stepsAt_of_lt hlt]
    exact (Nat.mul_one t).symm
  · have hk : ¬ e * binade + t < binade := by omega
    rw [stepsAt, if_neg hk]
    rcases Nat.lt_or_eq_of_le ht with hlt | rfl
    · have hmod : (e * binade + t) % binade = t - binade := by
        simp only [binade] at *
        omega
      have hdiv : (e * binade + t) / binade - 1 = e := by
        simp only [binade] at *
        omega
      rw [hmod, hdiv, Nat.add_sub_cancel' hge]
    · -- the next block begins here
      have hmod : (e * binade + 2 * binade) % binade = 0 := by
        simp only [binade] at *
        omega
      have hdiv : (e * binade + 2 * binade) / binade - 1 = e + 1 := by
        simp only [binade] at *
        omega
      have hpow : Nat.pow 2 (e + 1) = Nat.pow 2 e * 2 := rfl
      rw [hmod, hdiv, hpow, Nat.add_zero, Nat.mul_comm 2 binade, Nat.mul_assoc, Nat.mul_comm 2]

/-- Every position lies in a block. -/
theorem exists_block (k : Nat) : ∃ e t, k = e * binade + t ∧ t < 2 * binade ∧ (e = 0 ∨ binade ≤ t) := by
  rcases Nat.lt_or_ge k binade with hlt | hge
  · exact ⟨0, k, by omega, by omega, .inl rfl⟩
  · refine ⟨k / binade - 1, k % binade + binade, ?_, ?_, .inr (Nat.le_add_left _ _)⟩
    · simp only [binade] at *
      omega
    · have := Nat.mod_lt k (show 0 < binade by decide)
      omega

end Blocks

theorem stepsAt_lt_succ (k : Nat) : stepsAt k < stepsAt (k + 1) := by
  obtain ⟨e, t, rfl, ht, he⟩ := exists_block k
  rw [Nat.add_assoc, stepsAt_block (Nat.le_of_lt ht) he, stepsAt_block ht (by omega)]
  exact Nat.mul_lt_mul_of_pos_right (Nat.lt_succ_self t) (Nat.pow_pos (by decide))

/-- The magnitudes are listed in increasing order. -/
theorem stepsAt_strictMono : StrictMono stepsAt := strictMono_nat_of_lt_succ stepsAt_lt_succ

/-! ## The position of a number of steps -/

/-- **The position below a number of steps** is the one it lies at or after, before the next. -/
theorem positionBelow_spec (q : Nat) :
    stepsAt (positionBelow q) ≤ q ∧ q < stepsAt (positionBelow q + 1) := by
  have hpos : 0 < Nat.pow 2 (q.log2 - 52) := Nat.pow_pos (by decide)
  have hmul : binade * Nat.pow 2 (q.log2 - 52) = Nat.pow 2 (52 + (q.log2 - 52)) :=
    (Nat.pow_add 2 52 (q.log2 - 52)).symm
  have hlt : q / Nat.pow 2 (q.log2 - 52) < 2 * binade := by
    have hle : Nat.pow 2 (q.log2 + 1) ≤ Nat.pow 2 (52 + (q.log2 - 52) + 1) :=
      Nat.pow_le_pow_right (by decide) (by omega)
    have hq : q < Nat.pow 2 (q.log2 + 1) := Nat.lt_log2_self
    have hsucc : Nat.pow 2 (52 + (q.log2 - 52) + 1) = Nat.pow 2 (52 + (q.log2 - 52)) * 2 := rfl
    rw [Nat.div_lt_iff_lt_mul hpos, Nat.mul_assoc, hmul]
    omega
  have hge : q.log2 - 52 = 0 ∨ binade ≤ q / Nat.pow 2 (q.log2 - 52) := by
    by_cases hl : q.log2 - 52 = 0
    · exact .inl hl
    · refine .inr ((Nat.le_div_iff_mul_le hpos).2 ?_)
      have hq : q ≠ 0 := by
        rintro rfl
        exact hl rfl
      rw [hmul, Nat.add_sub_cancel' (by omega)]
      exact Nat.log2_self_le hq
  have hdiv := Nat.div_add_mod q (Nat.pow 2 (q.log2 - 52))
  have hmod := Nat.mod_lt q hpos
  rw [Nat.mul_comm] at hdiv
  rw [positionBelow, Nat.add_assoc, stepsAt_block (Nat.le_of_lt hlt) hge, stepsAt_block hlt (by omega),
    Nat.succ_mul]
  omega

/-! ## Rounding -/

section Rounding

variable {num den : Nat} {m : Magnitude}

/-- The quotient lies at or after the position below it, and before the next. -/
theorem positionBelow_div (num : Nat) (hden : 0 < den) :
    stepsAt (positionBelow (num / den)) * den ≤ num ∧ num < stepsAt (positionBelow (num / den) + 1) * den := by
  obtain ⟨hle, hlt⟩ := positionBelow_spec (num / den)
  exact ⟨(Nat.le_div_iff_mul_le hden).1 hle, (Nat.div_lt_iff_lt_mul hden).1 hlt⟩

/-- Rounding as an equation between functions: to unfold it at arguments is to compute with them. -/
theorem nearest_def : nearest = fun num den =>
    match compare (2 * num)
      ((stepsAt (positionBelow (num / den)) + stepsAt (positionBelow (num / den) + 1)) * den) with
    | .lt => ofPosition (positionBelow (num / den))
    | .gt => ofPosition (positionBelow (num / den) + 1)
    | .eq => ofPosition (positionBelow (num / den) + positionBelow (num / den) % 2) := rfl

theorem ofPosition_eq {k : Nat} (h : k = m.position) : ofPosition k = m := by
  rw [h, ofPosition_position]

/-- A quotient between the midpoints next to a magnitude lies at or after it, or after the magnitude before. -/
theorem positionBelow_of_between (hden : 0 < den)
    (hlow : (stepsAt (m.position - 1) + m.steps) * den ≤ 2 * num)
    (hhigh : 2 * num ≤ (m.steps + stepsAt (m.position + 1)) * den) :
    positionBelow (num / den) = m.position ∨ positionBelow (num / den) + 1 = m.position := by
  obtain ⟨hle, hlt⟩ := positionBelow_div num hden
  have hnext := Nat.mul_lt_mul_of_pos_right (stepsAt_lt_succ m.position) hden
  have hprev := Nat.mul_le_mul_right den (stepsAt_strictMono.monotone (Nat.sub_le m.position 1))
  simp only [steps, Nat.add_mul] at hlow hhigh
  have hk : positionBelow (num / den) < m.position + 1 := by
    refine stepsAt_strictMono.lt_iff_lt.1 (Nat.lt_of_mul_lt_mul_right (a := den) ?_)
    omega
  have hk' : m.position - 1 < positionBelow (num / den) + 1 := by
    refine stepsAt_strictMono.lt_iff_lt.1 (Nat.lt_of_mul_lt_mul_right (a := den) ?_)
    omega
  omega

/-- **Rounding to nearest**: between the midpoints next to a magnitude every quotient rounds to it, at a midpoint if
the position is even. -/
theorem nearest_eq (hden : 0 < den)
    (hlow : (stepsAt (m.position - 1) + m.steps) * den ≤ 2 * num)
    (hhigh : 2 * num ≤ (m.steps + stepsAt (m.position + 1)) * den)
    (hodd : m.position % 2 = 1 → (stepsAt (m.position - 1) + m.steps) * den ≠ 2 * num ∧
      2 * num ≠ (m.steps + stepsAt (m.position + 1)) * den) : nearest num den = m := by
  have hbetween := positionBelow_of_between hden hlow hhigh
  rw [nearest_def]
  simp only
  generalize positionBelow (num / den) = k at hbetween ⊢
  rcases hbetween with rfl | hk
  · -- the quotient lies at or after the magnitude, up to the midpoint with the next
    rw [steps] at hhigh hodd
    split
    · exact ofPosition_position m
    · rename_i hcmp
      rw [Nat.compare_eq_gt] at hcmp
      omega
    · rename_i hcmp
      rw [Nat.compare_eq_eq] at hcmp
      exact ofPosition_eq (by omega)
  · -- the quotient lies before the magnitude, from the midpoint with the one before on
    obtain rfl : k = m.position - 1 := by omega
    rw [steps] at hlow hodd
    rw [hk]
    split
    · rename_i hcmp
      rw [Nat.compare_eq_lt] at hcmp
      omega
    · exact ofPosition_position m
    · rename_i hcmp
      rw [Nat.compare_eq_eq] at hcmp
      exact ofPosition_eq (by omega)

/-- Infinity counts as `2 ^ 1024`. -/
theorem steps_infinity : infinity.steps = Nat.pow 2 1024 * stepsInOne := by
  have hpos : infinity.position = 2045 * binade + 2 * binade := by decide
  have hbinade : 2 * binade = Nat.pow 2 53 := by decide
  have hadd (a b : Nat) : Nat.pow 2 a * Nat.pow 2 b = Nat.pow 2 (a + b) := (Nat.pow_add 2 a b).symm
  rw [steps, hpos, stepsAt_block (Nat.le_refl _) (by omega), hbinade, hadd, stepsInOne, hadd]

theorem eq_infinity (h : m.isInfinite = true) : m = infinity := by
  cases m with
  | mk k hk =>
    obtain rfl : k = 0x7FF0000000000000 := by simpa [isInfinite] using h
    rfl

theorem ofPosition_of_le {k : Nat} (h : infinity.position ≤ k) : ofPosition k = infinity := by
  have hmin : min k 0x7FF0000000000000 = 0x7FF0000000000000 := Nat.min_eq_right h
  simp only [ofPosition, infinity, hmin]

/-- **Quotients that are too large** round to infinity. -/
theorem nearest_eq_infinity (hden : 0 < den) (h : infinity.steps * den ≤ num) : nearest num den = infinity := by
  obtain ⟨-, hlt⟩ := positionBelow_div num hden
  rw [nearest_def]
  simp only
  generalize positionBelow (num / den) = k at hlt ⊢
  have hk : infinity.position ≤ k := by
    refine Nat.le_of_lt_succ (stepsAt_strictMono.lt_iff_lt.1 (Nat.lt_of_mul_lt_mul_right (a := den) ?_))
    exact Nat.lt_of_le_of_lt h hlt
  split
  · exact ofPosition_of_le hk
  · exact ofPosition_of_le (Nat.le_succ_of_le hk)
  · exact ofPosition_of_le (Nat.le_add_right_of_le hk)

end Rounding

/-! ## Whole numbers -/

theorem stepsInOne_dvd_steps_ofPosition {k : Nat} (h : stepsInOne ∣ stepsAt k) : stepsInOne ∣ (ofPosition k).steps := by
  rcases Nat.lt_or_ge k infinity.position with hlt | hge
  · have hmin : (ofPosition k).position = k := Nat.min_eq_left (Nat.le_of_lt hlt)
    rwa [steps, hmin]
  · rw [ofPosition_of_le hge, steps_infinity]
    exact Nat.dvd_mul_left ..

/-- **A whole number rounds to a whole number.** -/
theorem stepsInOne_dvd_steps_nearest (n : Nat) : stepsInOne ∣ (nearest (n * stepsInOne) 1).steps := by
  obtain ⟨hle, hlt⟩ := positionBelow_div (n * stepsInOne) Nat.one_pos
  rw [nearest_def]
  simp only
  generalize positionBelow (n * stepsInOne / 1) = k at hle hlt ⊢
  rw [Nat.mul_one] at hle hlt ⊢
  obtain ⟨e, t, rfl, ht, he⟩ := exists_block k
  have hk : stepsAt (e * binade + t) = t * Nat.pow 2 e := stepsAt_block (Nat.le_of_lt ht) he
  have hnext : stepsAt (e * binade + t + 1) = (t + 1) * Nat.pow 2 e := by
    rw [Nat.add_assoc, stepsAt_block ht (by omega)]
  rcases Nat.lt_or_ge e 1074 with hlow | hhigh
  · -- the spacing divides one, so the number itself has a position
    have hdvd : Nat.pow 2 e ∣ n * stepsInOne := Nat.dvd_mul_left_of_dvd (Nat.pow_dvd_pow 2 (Nat.le_of_lt hlow)) n
    have heq : n * stepsInOne = stepsAt (e * binade + t) := by
      rw [hk] at hle
      rw [hnext] at hlt
      calc n * stepsInOne = n * stepsInOne / Nat.pow 2 e * Nat.pow 2 e := (Nat.div_mul_cancel hdvd).symm
        _ = stepsAt (e * binade + t) := by rw [Nat.div_eq_of_lt_le hle hlt, hk]
    have hcmp : compare (2 * (n * stepsInOne)) (stepsAt (e * binade + t) + stepsAt (e * binade + t + 1)) = .lt := by
      rw [Nat.compare_eq_lt, heq]
      have := stepsAt_lt_succ (e * binade + t)
      omega
    rw [hcmp]
    exact stepsInOne_dvd_steps_ofPosition (heq ▸ Nat.dvd_mul_left ..)
  · -- the positions here are whole numbers
    have hdvd : stepsInOne ∣ Nat.pow 2 e := Nat.pow_dvd_pow 2 hhigh
    have hbelow : stepsInOne ∣ stepsAt (e * binade + t) := hk ▸ Nat.dvd_mul_left_of_dvd hdvd t
    have habove : stepsInOne ∣ stepsAt (e * binade + t + 1) := hnext ▸ Nat.dvd_mul_left_of_dvd hdvd (t + 1)
    split
    · exact stepsInOne_dvd_steps_ofPosition hbelow
    · exact stepsInOne_dvd_steps_ofPosition habove
    · refine stepsInOne_dvd_steps_ofPosition ?_
      rcases Nat.mod_two_eq_zero_or_one (e * binade + t) with h | h
      · rw [h, Nat.add_zero]
        exact hbelow
      · rw [h]
        exact habove

end LoxCalc.Magnitude
