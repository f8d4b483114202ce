import LoxCalc.Binary64.Basic
import LoxCalc.Proofs.Binary64.Nearest
import Mathlib.Algebra.Order.Field.Rat
import Mathlib.Algebra.Order.Field.Basic
import Mathlib.Tactic.Linarith
import Mathlib.Tactic.Ring
import Mathlib.Tactic.Positivity

/-!
# LoxCalc.Proofs.Binary64.Rounding — rounding gives the nearest number, a tie to the even significand

* `Magnitude.significand`, `Magnitude.exponent`: the fields of a bit pattern; `Magnitude.value` is the exact value they
  stand for, the steps of `2 ^ (-1074)` (`value_eq`).
* `Magnitude.IsRounding q m`: `m` is the number nearest to `q`, of two the one with an even significand, infinity from
  halfway between the greatest finite number and `2 ^ 1024` on.
* `IsNearestAt r p`: the position `p` is the nearest to `r` steps in the list continued beyond infinity.  Rounding finds
  such a position (`exists_isNearestAt`), and greater numbers have greater ones (`IsNearestAt.mono`).
* `isRounding_nearest`: so rounding is correct; `IsRounding.mono`: it keeps the order, so there is one rounding.
-/

namespace LoxCalc

/-! ## Exact values -/

namespace Magnitude

variable (m : Magnitude)

/-- The significand of a finite magnitude: the last 52 bits of its pattern, after a hidden bit unless the bits in front
of them are all zero. -/
def significand : Nat := if m.position / binade = 0 then m.position % binade else binade + m.position % binade

/-- The power of two that the significand counts. -/
def exponent : Int := (m.position / binade - 1 : Nat) - 1074

/-- The value of a finite magnitude. -/
def value : ℚ := m.significand * 2 ^ m.exponent

theorem stepsInOne_cast : (stepsInOne : ℚ) = 2 ^ 1074 := by
  rw [stepsInOne, Nat.pow_eq, Nat.cast_pow, Nat.cast_ofNat]

theorem stepsInOne_pos : (0 : ℚ) < stepsInOne := by
  rw [stepsInOne_cast]
  positivity

theorem steps_eq : m.steps = m.significand * Nat.pow 2 (m.position / binade - 1) := by
  have hbinade : 0 < binade := by decide
  rw [steps, stepsAt, significand]
  by_cases hk : m.position < binade
  · rw [if_pos hk, if_pos (Nat.div_eq_of_lt hk), Nat.mod_eq_of_lt hk, Nat.div_eq_of_lt hk]
    exact (Nat.mul_one _).symm
  · rw [if_neg hk, if_neg (by rw [Nat.div_eq_zero_iff]; omega)]

/-- **The value of a magnitude** is its steps. -/
theorem value_eq : m.value = m.steps / stepsInOne := by
  rw [value, exponent, zpow_sub₀ two_ne_zero, zpow_natCast, zpow_ofNat, ← stepsInOne_cast, steps_eq, Nat.cast_mul,
    Nat.pow_eq, Nat.cast_pow, Nat.cast_ofNat, mul_div_assoc]

theorem significand_mod_two : m.significand % 2 = m.position % 2 := by
  have hbinade : binade = 2 * (binade / 2) := by decide
  have hmod : m.position % binade % 2 = m.position % 2 := Nat.mod_mod_of_dvd _ ⟨_, hbinade⟩
  unfold significand
  split
  · exact hmod
  · rw [Nat.add_mod, hmod]
    simp [binade]

end Magnitude

namespace Binary64

/-- The value of a finite number. -/
def value : Binary64 → ℚ
  | .nan => 0
  | .signed negative m => if negative then -m.value else m.value

end Binary64

namespace Magnitude

/-- **Correct rounding** of a number that is not negative: to infinity from halfway between the greatest finite number
and `2 ^ 1024` on, and else to the nearest of all finite numbers, of two equally near ones to the one with an even
significand. -/
structure IsRounding (q : ℚ) (m : Magnitude) : Prop where
  infinite_iff : m.isInfinite = true ↔ 2 ^ 1024 - 2 ^ 970 ≤ q
  nearest : m.isInfinite = false → ∀ y : Binary64, y.isFinite = true → |q - m.value| ≤ |q - y.value|
  even : m.isInfinite = false → ∀ y : Binary64, y.isFinite = true → y.value ≠ m.value →
    |q - y.value| = |q - m.value| → m.significand % 2 = 0

/-! ## Nearest positions -/

/-- No position is nearer to `r` steps, and no other one as near unless this one is even. -/
structure IsNearestAt (r : ℚ) (p : Nat) : Prop where
  nearest : ∀ j, |r - stepsAt p| ≤ |r - stepsAt j|
  even : ∀ j, j ≠ p → |r - stepsAt j| = |r - stepsAt p| → p % 2 = 0

section Positions

variable {r r' : ℚ} {j k p p' : Nat}

theorem stepsAt_cast_le (h : j ≤ k) : (stepsAt j : ℚ) ≤ stepsAt k := Nat.cast_le.2 (stepsAt_strictMono.monotone h)

theorem stepsAt_cast_lt (h : j < k) : (stepsAt j : ℚ) < stepsAt k := Nat.cast_lt.2 (stepsAt_strictMono h)

/-- Of two numbers the smaller is as near as the other up to their midpoint. -/
theorem abs_sub_le_abs_sub_iff {a b r : ℚ} (h : a < b) :
    (|r - a| ≤ |r - b| ↔ 2 * r ≤ a + b) ∧ (|r - b| ≤ |r - a| ↔ a + b ≤ 2 * r) := by
  rw [← sq_le_sq, ← sq_le_sq]
  refine ⟨⟨fun hle => ?_, fun hle => ?_⟩, ⟨fun hle => ?_, fun hle => ?_⟩⟩ <;> nlinarith

theorem abs_sub_eq_abs_sub {a b r : ℚ} (h : a < b) (hr : 2 * r = a + b) : |r - a| = |r - b| :=
  le_antisymm ((abs_sub_le_abs_sub_iff h).1.2 hr.le) ((abs_sub_le_abs_sub_iff h).2.2 hr.ge)

/-- Between two positions the nearer one is the nearest of all. -/
theorem isNearestAt_of_between (hle : stepsAt k ≤ r) (hlt : r < stepsAt (k + 1))
    (hp : p = k ∧ r - stepsAt k ≤ stepsAt (k + 1) - r ∨ p = k + 1 ∧ stepsAt (k + 1) - r ≤ r - stepsAt k)
    (heven : r - stepsAt k = stepsAt (k + 1) - r → p % 2 = 0) : IsNearestAt r p := by
  have hbelow {j : Nat} (hj : j ≤ k) : |r - stepsAt j| = r - stepsAt j :=
    abs_of_nonneg (by linarith [stepsAt_cast_le hj])
  have habove {j : Nat} (hj : k + 1 ≤ j) : |r - stepsAt j| = stepsAt j - r := by
    rw [abs_sub_comm, abs_of_nonneg (by linarith [stepsAt_cast_le hj])]
  rcases hp with ⟨rfl, hnear⟩ | ⟨rfl, hnear⟩
  · rw [← hbelow le_rfl] at hnear
    refine ⟨fun j => ?_, fun j hj heq => ?_⟩
    · rcases Nat.lt_or_ge p j with hj | hj
      · rw [habove hj]
        linarith [stepsAt_cast_le hj]
      · rw [hbelow hj, hbelow le_rfl]
        linarith [stepsAt_cast_le hj]
    · rw [hbelow le_rfl] at hnear heq
      rcases Nat.lt_or_gt_of_ne hj with hj | hj
      · rw [hbelow hj.le] at heq
        linarith [stepsAt_cast_lt hj]
      · rw [habove hj] at heq
        exact heven (by linarith [stepsAt_cast_le hj])
  · refine ⟨fun j => ?_, fun j hj heq => ?_⟩
    · rw [habove le_rfl]
      rcases Nat.lt_or_ge k j with hj | hj
      · rw [habove hj]
        linarith [stepsAt_cast_le hj]
      · rw [hbelow hj]
        linarith [stepsAt_cast_le hj]
    · rw [habove le_rfl] at heq
      rcases Nat.lt_or_gt_of_ne hj with hj | hj
      · rw [hbelow (Nat.le_of_lt_succ hj)] at heq
        exact heven (by linarith [stepsAt_cast_le (Nat.le_of_lt_succ hj)])
      · rw [habove hj.le] at heq
        linarith [stepsAt_cast_lt hj]

/-- **Rounding finds a nearest position**, and ends at infinity if it lies beyond. -/
theorem exists_isNearestAt (num : Nat) {den : Nat} (hden : 0 < den) :
    ∃ p, nearest num den = ofPosition p ∧ IsNearestAt (num / den) p := by
  obtain ⟨hle, hlt⟩ := positionBelow_div num hden
  have hden' : (0 : ℚ) < den := Nat.cast_pos.2 hden
  rw [nearest_def]
  simp only
  generalize positionBelow (num / den) = k at hle hlt ⊢
  obtain ⟨r, hr⟩ : ∃ r : ℚ, (num / den : ℚ) = r := ⟨_, rfl⟩
  have hnum : (num : ℚ) = r * den := by rw [← hr, div_mul_cancel₀ _ hden'.ne']
  have hle' : stepsAt k ≤ r := by
    rw [← hr, le_div_iff₀ hden']
    exact_mod_cast hle
  have hlt' : r < stepsAt (k + 1) := by
    rw [← hr, div_lt_iff₀ hden']
    exact_mod_cast hlt
  have htwice : ((2 * num : Nat) : ℚ) = 2 * r * den := by
    rw [Nat.cast_mul, Nat.cast_ofNat, hnum, mul_assoc]
  have hmiddle : (((stepsAt k + stepsAt (k + 1)) * den : Nat) : ℚ) = (stepsAt k + stepsAt (k + 1)) * den := by
    rw [Nat.cast_mul, Nat.cast_add]
  rw [hr]
  split
  · rename_i hcmp
    rw [Nat.compare_eq_lt, ← Nat.cast_lt (α := ℚ), htwice, hmiddle, mul_lt_mul_iff_left₀ hden'] at hcmp
    exact ⟨k, rfl, isNearestAt_of_between hle' hlt' (.inl ⟨rfl, by linarith⟩) (fun _ => by linarith)⟩
  · rename_i hcmp
    rw [Nat.compare_eq_gt, ← Nat.cast_lt (α := ℚ), htwice, hmiddle, mul_lt_mul_iff_left₀ hden'] at hcmp
    exact ⟨k + 1, rfl, isNearestAt_of_between hle' hlt' (.inr ⟨rfl, by linarith⟩) (fun _ => by linarith)⟩
  · rename_i hcmp
    rw [Nat.compare_eq_eq, ← Nat.cast_inj (R := ℚ), htwice, hmiddle, mul_left_inj' hden'.ne'] at hcmp
    refine ⟨k + k % 2, rfl, isNearestAt_of_between hle' hlt' ?_ (fun _ => by omega)⟩
    rcases Nat.mod_two_eq_zero_or_one k with hk | hk
    · exact .inl ⟨by omega, by linarith⟩
    · exact .inr ⟨by omega, by linarith⟩

/-- **Greater numbers have greater nearest positions.** -/
theorem IsNearestAt.mono (h : IsNearestAt r p) (h' : IsNearestAt r' p') (hr : r ≤ r') : p ≤ p' := by
  by_contra hlt
  rw [Nat.not_le] at hlt
  have hnear := (abs_sub_le_abs_sub_iff (stepsAt_cast_lt hlt)).2.1 (h.nearest p')
  have hnear' := (abs_sub_le_abs_sub_iff (stepsAt_cast_lt hlt)).1.1 (h'.nearest p)
  -- both numbers are the midpoint, so both positions are even, and the one after the smaller is nearer
  obtain rfl : r = r' := by linarith
  have htie := abs_sub_eq_abs_sub (stepsAt_cast_lt hlt) (by linarith)
  have heven := h.even p' hlt.ne htie
  have heven' := h'.even p hlt.ne' htie.symm
  have hbetween : p' + 1 < p := by omega
  have hnext := (abs_sub_le_abs_sub_iff (stepsAt_cast_lt hbetween)).2.1 (h.nearest (p' + 1))
  linarith [stepsAt_cast_lt (Nat.lt_add_one p')]

/-- The last position of a finite magnitude. -/
theorem odd_before_infinity : (infinity.position - 1) % 2 = 1 := by decide

/-- **The nearest position lies beyond the finite ones** from halfway to infinity on. -/
theorem IsNearestAt.infinity_le_iff (h : IsNearestAt r p) : infinity.position ≤ p ↔
    (stepsAt (infinity.position - 1) + stepsAt infinity.position : ℚ) ≤ 2 * r := by
  have hlast : infinity.position - 1 + 1 = infinity.position := by decide
  have hodd := odd_before_infinity
  revert hlast hodd
  generalize infinity.position - 1 = last
  generalize infinity.position = beyond
  rintro rfl hodd
  constructor
  · intro hp
    have hnear := (abs_sub_le_abs_sub_iff (stepsAt_cast_lt hp)).2.1 (h.nearest last)
    linarith [stepsAt_cast_le hp]
  · intro hr
    by_contra hp
    rw [Nat.not_le] at hp
    have hnear := (abs_sub_le_abs_sub_iff (stepsAt_cast_lt hp)).1.1 (h.nearest (last + 1))
    rcases Nat.lt_or_eq_of_le (Nat.le_of_lt_succ hp) with hlt | rfl
    · linarith [stepsAt_cast_lt hlt]
    · -- a tie, which goes to the even position
      have htie := abs_sub_eq_abs_sub (stepsAt_cast_lt hp) (by linarith)
      have := h.even _ hp.ne' htie.symm
      omega

/-- Halfway to infinity stand `2 ^ 1024 - 2 ^ 970`. -/
theorem stepsAt_before_infinity : (stepsAt (infinity.position - 1) + stepsAt infinity.position : ℚ) =
    2 * ((2 ^ 1024 - 2 ^ 970) * stepsInOne) := by
  have hlast : infinity.position - 1 = 2045 * binade + (2 * binade - 1) := by decide
  have hbinade : ((2 * binade - 1 : Nat) : ℚ) = 2 ^ 53 - 1 := by
    have hnat : 2 * binade - 1 = 2 ^ 53 - 1 := by decide
    rw [hnat, Nat.cast_sub (by decide)]
    norm_cast
  have hinfinity : (stepsAt infinity.position : ℚ) = 2 ^ 1024 * stepsInOne := by
    have hsteps : stepsAt infinity.position = Nat.pow 2 1024 * stepsInOne := steps_infinity
    rw [hsteps, Nat.cast_mul, Nat.pow_eq, Nat.cast_pow, Nat.cast_ofNat]
  have hbefore : (stepsAt (infinity.position - 1) : ℚ) = (2 ^ 53 - 1) * (2 ^ 971 * stepsInOne) := by
    rw [hlast, stepsAt_block (by omega) (by decide), Nat.cast_mul, hbinade, Nat.pow_eq, Nat.cast_pow, Nat.cast_ofNat,
      stepsInOne_cast, ← pow_add]
  have hpow : (2 : ℚ) ^ 1024 = 2 ^ 53 * 2 ^ 971 := by rw [← pow_add]
  have hpow' : (2 : ℚ) ^ 971 = 2 ^ 970 * 2 := pow_succ 2 970
  rw [hinfinity, hbefore, hpow, hpow']
  generalize (2 : ℚ) ^ 970 = x
  generalize (stepsInOne : ℚ) = u
  ring

end Positions

/-! ## Rounding -/

section Rounding

variable {q q' : ℚ} {m m' : Magnitude}

theorem value_mul_stepsInOne (m : Magnitude) : m.value * stepsInOne = stepsAt m.position := by
  rw [value_eq, div_mul_cancel₀ _ stepsInOne_pos.ne', steps]

/-- Distances in steps. -/
theorem abs_sub_mul_stepsInOne (a b : ℚ) : |a - b| * stepsInOne = |a * stepsInOne - b * stepsInOne| := by
  rw [← sub_mul, abs_mul, abs_of_pos stepsInOne_pos]

theorem abs_sub_value_mul (q : ℚ) (m : Magnitude) :
    |q - m.value| * stepsInOne = |q * stepsInOne - stepsAt m.position| := by
  rw [abs_sub_mul_stepsInOne, value_mul_stepsInOne]

/-- A finite number is no nearer to `q` than some position, and as near only if it stands there. -/
theorem exists_position_of_isFinite (hq : 0 ≤ q) {y : Binary64} (hy : y.isFinite = true) : ∃ j,
    |q * stepsInOne - stepsAt j| ≤ |q - y.value| * stepsInOne ∧
      (|q - y.value| * stepsInOne = |q * stepsInOne - stepsAt j| → y.value * stepsInOne = stepsAt j) := by
  obtain _ | ⟨negative, m⟩ := y
  · cases hy
  cases negative with
  | false => exact ⟨m.position, (abs_sub_value_mul q m).ge, fun _ => value_mul_stepsInOne m⟩
  | true =>
    -- zero is nearer than a negative number
    have hzero : ((stepsAt 0 : Nat) : ℚ) = 0 := by rw [stepsAt_of_lt (by decide), Nat.cast_zero]
    have hvalue : Binary64.value (.signed true m) = -m.value := rfl
    have hm : 0 ≤ m.value * stepsInOne := by
      rw [value_mul_stepsInOne]
      exact Nat.cast_nonneg _
    have hq' : 0 ≤ q * stepsInOne := mul_nonneg hq stepsInOne_pos.le
    refine ⟨0, ?_⟩
    rw [abs_sub_mul_stepsInOne, hzero, sub_zero, abs_of_nonneg hq', hvalue, neg_mul, sub_neg_eq_add,
      abs_of_nonneg (add_nonneg hq' hm)]
    exact ⟨by linarith, fun heq => by linarith⟩

theorem infinity_le_position_iff : m.isInfinite = true ↔ infinity.position ≤ m.position := by
  have hle := m.position_le
  have hinfinity : infinity.position = 0x7FF0000000000000 := rfl
  rw [isInfinite, beq_iff_eq]
  omega

theorem halfway_le_iff : (stepsAt (infinity.position - 1) + stepsAt infinity.position : ℚ) ≤ 2 * (q * stepsInOne) ↔
    2 ^ 1024 - 2 ^ 970 ≤ q := by
  rw [stepsAt_before_infinity, mul_le_mul_iff_right₀ two_pos, mul_le_mul_iff_left₀ stepsInOne_pos]

theorem isInfinite_ofPosition_iff {p : Nat} : (ofPosition p).isInfinite = true ↔ infinity.position ≤ p := by
  rw [infinity_le_position_iff, position_ofPosition]
  constructor
  · intro h
    exact h.trans (min_le_left _ _)
  · intro h
    exact le_min h le_rfl

theorem position_ofPosition_of_not_isInfinite {p : Nat} (h : (ofPosition p).isInfinite = false) :
    (ofPosition p).position = p := by
  have hlt := mt isInfinite_ofPosition_iff.2 (by rw [h]; exact Bool.false_ne_true)
  exact Nat.min_eq_left (Nat.le_of_lt (Nat.not_le.1 hlt))

/-- **Rounding is correct**, of `num / den` steps that are the number `q`. -/
theorem isRounding_nearest {num den : Nat} (hden : 0 < den) (hq : q * stepsInOne = num / den) :
    IsRounding q (nearest num den) := by
  obtain ⟨p, hnearest, hp⟩ := exists_isNearestAt num hden
  have hq0 : 0 ≤ q := by
    refine nonneg_of_mul_nonneg_left ?_ stepsInOne_pos
    rw [hq]
    positivity
  rw [← hq] at hp
  rw [hnearest]
  refine ⟨?_, ?_, ?_⟩
  · rw [isInfinite_ofPosition_iff, hp.infinity_le_iff, halfway_le_iff]
  · intro hfinite y hy
    obtain ⟨j, hj, -⟩ := exists_position_of_isFinite hq0 hy
    refine le_of_mul_le_mul_right ?_ stepsInOne_pos
    rw [abs_sub_value_mul, position_ofPosition_of_not_isInfinite hfinite]
    exact (hp.nearest j).trans hj
  · intro hfinite y hy hne htie
    have hposition := position_ofPosition_of_not_isInfinite hfinite
    obtain ⟨j, hj, hj'⟩ := exists_position_of_isFinite hq0 hy
    rw [htie, abs_sub_value_mul, hposition] at hj hj'
    have heq := le_antisymm hj (hp.nearest j)
    rw [significand_mod_two, hposition]
    refine hp.even j (fun hjp => hne ?_) heq
    rw [← mul_left_inj' stepsInOne_pos.ne', hj' heq.symm, value_mul_stepsInOne, hposition, hjp]

/-- At every position before infinity stands a finite number. -/
theorem exists_isFinite_at (q : ℚ) {j : Nat} (hj : j < infinity.position) : ∃ y : Binary64, y.isFinite = true ∧
    y.value * stepsInOne = stepsAt j ∧ |q - y.value| * stepsInOne = |q * stepsInOne - stepsAt j| := by
  have hlt : ¬ (Magnitude.mk j hj.le).isInfinite = true := by
    rw [infinity_le_position_iff]
    exact Nat.not_le.2 hj
  refine ⟨.signed false ⟨j, hj.le⟩, ?_, value_mul_stepsInOne _, abs_sub_value_mul q _⟩
  simpa [Binary64.isFinite] using hlt

/-- A correct rounding to a finite number stands at a nearest position. -/
theorem IsRounding.isNearestAt (h : IsRounding q m) (hm : m.isInfinite = false) :
    IsNearestAt (q * stepsInOne) m.position := by
  have hnear {j : Nat} (hj : j < infinity.position) :
      |q * stepsInOne - stepsAt m.position| ≤ |q * stepsInOne - stepsAt j| := by
    obtain ⟨y, hy, -, hdist⟩ := exists_isFinite_at q hj
    rw [← hdist, ← abs_sub_value_mul]
    exact mul_le_mul_of_nonneg_right (h.nearest hm y hy) stepsInOne_pos.le
  have hfar {j : Nat} (hj : infinity.position ≤ j) :
      |q * stepsInOne - stepsAt m.position| < |q * stepsInOne - stepsAt j| := by
    -- the last finite magnitude is nearer than what lies beyond
    have hlast : infinity.position - 1 < infinity.position := by decide
    have hbelow := mt h.infinite_iff.2 (by rw [hm]; exact Bool.false_ne_true)
    rw [← halfway_le_iff] at hbelow
    refine (hnear hlast).trans_lt (not_le.1 (mt (abs_sub_le_abs_sub_iff (stepsAt_cast_lt (hlast.trans_le hj))).2.1 ?_))
    linarith [stepsAt_cast_le hj]
  constructor
  · intro j
    exact (Nat.lt_or_ge j infinity.position).elim hnear fun hj => (hfar hj).le
  · intro j hj htie
    rcases Nat.lt_or_ge j infinity.position with hlt | hge
    · obtain ⟨y, hy, hvalue, hdist⟩ := exists_isFinite_at q hlt
      rw [← significand_mod_two]
      refine h.even hm y hy ?_ ?_
      · intro heq
        apply hj
        rw [heq, value_mul_stepsInOne, Nat.cast_inj] at hvalue
        exact (stepsAt_strictMono.injective hvalue).symm
      · rw [← mul_left_inj' stepsInOne_pos.ne', hdist, abs_sub_value_mul, htie]
    · exact absurd htie (hfar hge).ne'

/-- **Correct rounding keeps the order.** -/
theorem IsRounding.mono (h : IsRounding q m) (h' : IsRounding q' m') (hq : q ≤ q') : m.position ≤ m'.position := by
  by_cases hm' : m'.isInfinite = true
  · exact m.position_le.trans (infinity_le_position_iff.1 hm')
  · have hm : ¬ m.isInfinite = true := fun hm => hm' (h'.infinite_iff.2 ((h.infinite_iff.1 hm).trans hq))
    rw [Bool.not_eq_true] at hm hm'
    exact (h.isNearestAt hm).mono (h'.isNearestAt hm') (mul_le_mul_of_nonneg_right hq stepsInOne_pos.le)

/-- **There is one correct rounding.** -/
theorem IsRounding.unique (h : IsRounding q m) (h' : IsRounding q m') : m = m' := by
  have hposition := le_antisymm (h.mono h' le_rfl) (h'.mono h le_rfl)
  rwa [← Magnitude.mk.injEq] at hposition

end Rounding

end Magnitude

end LoxCalc
