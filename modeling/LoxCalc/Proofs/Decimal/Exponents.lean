import LoxCalc.Dump
import LoxCalc.Proofs.Decimal.Numerals
import LoxCalc.Proofs.Json.Grammar

/-!
# LoxCalc.Proofs.Decimal.Exponents — numerals with an exponent, and the numbers of a dump

A number is dumped as a numeral, which an exponent may follow (`ScaledNumeral`).

* `Decimal.exists_isSpelledBy`: whether a decimal is written out or with an exponent, its spelling is such a numeral of
  the same value.  The text says which numeral it is (`ScaledNumeral.text_inj`), so two decimals are spelled alike only
  if they are equal as rational numbers.
* The decimal of fewest digits lies in the rounding interval of its number, so its value says which number it is
  (`Magnitude.eq_of_value_shortest`).
* `Binary64.toJson_inj`: no two finite numbers are dumped alike.
-/

namespace LoxCalc

/-! ## Numerals with an exponent -/

/-- A numeral, and the power of ten that it is taken times if one is written. -/
structure ScaledNumeral where
  numeral : Numeral
  exponent : Option Int

namespace ScaledNumeral

/-- An exponent with its sign. -/
def signedDigits (e : Int) : List Char := (if e < 0 then '-' else '+') :: Nat.toDigits 10 e.natAbs

/-- What stands behind the numeral. -/
def exponentText : Option Int → List Char
  | none => []
  | some e => 'e' :: signedDigits e

def text (n : ScaledNumeral) : List Char := n.numeral.text.toList ++ exponentText n.exponent

def value (n : ScaledNumeral) : ℚ := n.numeral.value * 10 ^ n.exponent.getD 0

@[simp] theorem text_none (n : Numeral) : (⟨n, none⟩ : ScaledNumeral).text = n.text.toList := List.append_nil _

@[simp] theorem value_none (n : Numeral) : (⟨n, none⟩ : ScaledNumeral).value = n.value := by simp [value]

theorem signedDigits_inj {e e' : Int} (h : signedDigits e = signedDigits e') : e = e' := by
  obtain ⟨hsign, hdigits⟩ := List.cons.inj h
  have habs := toDigits_inj (by decide) (by decide) hdigits
  split at hsign <;> split at hsign
  · omega
  · cases hsign
  · cases hsign
  · omega

/-- The text says where the exponent begins, if there is one. -/
theorem append_exponentText_inj {n n' : Numeral} {e e' : Option Int}
    (h : n.text.toList ++ exponentText e = n'.text.toList ++ exponentText e') : n.text = n'.text ∧ e = e' := by
  have hletter (n : Numeral) : 'e' ∉ n.text.toList := fun hmem =>
    n.forall_mem_text (P := (· ≠ 'e')) (by rintro c hc rfl; cases hc) (by decide) _ hmem rfl
  cases e with
  | none =>
    rw [exponentText, List.append_nil] at h
    cases e' with
    | none =>
      rw [exponentText, List.append_nil] at h
      exact ⟨String.toList_inj.1 h, rfl⟩
    | some e' => exact absurd (h ▸ List.mem_append_right _ List.mem_cons_self) (hletter n)
  | some e =>
    cases e' with
    | none =>
      rw [exponentText, exponentText, List.append_nil] at h
      exact absurd (h ▸ List.mem_append_right _ List.mem_cons_self) (hletter n')
    | some e' =>
      obtain ⟨htext, hexponent⟩ := delimited_inj (hletter n) (hletter n') h
      exact ⟨String.toList_inj.1 htext, congrArg some (signedDigits_inj hexponent)⟩

/-- **The text says which numeral it is**, and which exponent follows. -/
theorem text_inj {n n' : ScaledNumeral} (h : n.text = n'.text) : n = n' := by
  obtain ⟨htext, hexponent⟩ := append_exponentText_inj h
  cases n
  cases n'
  obtain rfl := Numeral.text_inj htext
  obtain rfl := hexponent
  rfl

/-- The text begins with a digit. -/
theorem exists_text_eq_cons (n : ScaledNumeral) : ∃ c cs, n.text = c :: cs ∧ Segment.isDigit c = true := by
  obtain ⟨c, hc, hdigit⟩ := n.numeral.form.number_head
  obtain ⟨cs, hcs⟩ := List.head?_eq_some_iff.1 hc
  exact ⟨c, cs ++ exponentText n.exponent, by rw [text, hcs]; rfl, hdigit⟩

/-- With a minus or without, the text is a JSON number if its first digits are those of one. -/
theorem isNumber_text {n : ScaledNumeral} (h : Json.IsWhole n.numeral.whole) {minus : List Char}
    (hminus : minus ∈ [[], ['-']]) : Json.IsNumber (minus ++ n.text) := by
  have hexponent : Json.IsExponent (exponentText n.exponent) := by
    cases n.exponent with
    | none => exact .none
    | some e =>
      have hdigits : Json.AreDigits (Nat.toDigits 10 e.natAbs) :=
        ⟨Nat.toDigits_ne_nil, fun c hc => isDigit_of_mem_toDigits hc⟩
      have hsign : [if e < 0 then '-' else '+'] ∈ [[], ['+'], ['-']] := by split <;> decide
      exact @Json.IsExponent.exponent 'e' _ _ (by decide) hsign hdigits
  have hpoint : ∃ fraction, n.numeral.text.toList = n.numeral.whole ++ fraction ∧ Json.IsFraction fraction := by
    rw [n.numeral.isNumeral.text_eq]
    split
    · exact ⟨[], (List.append_nil _).symm, .none⟩
    · rename_i hne
      refine ⟨_, rfl, .point ⟨by simpa using hne, fun c hc => ?_⟩⟩
      exact n.numeral.digits c (List.mem_append_right _ hc)
  obtain ⟨fraction, htext, hfraction⟩ := hpoint
  rw [text, htext, List.append_assoc]
  exact .mk hminus h hfraction hexponent

end ScaledNumeral

/-! ## Decimals -/

/-- A lone zero, or digits that begin with another. -/
theorem isWhole_of_digits {whole : List Char} (hne : whole ≠ []) (hdigits : ∀ c ∈ whole, Segment.isDigit c = true)
    (h : whole = ['0'] ∨ whole.head? ≠ some '0') : Json.IsWhole whole := by
  rcases h with rfl | h
  · exact .zero
  · obtain ⟨c, cs, rfl⟩ := List.exists_cons_of_ne_nil hne
    exact .digits (fun hc => h (congrArg some hc)) ⟨List.cons_ne_nil _ _, hdigits⟩

theorem Numeral.isWhole_of_head {n : Numeral} (h : n.whole = ['0'] ∨ n.whole.head? ≠ some '0') :
    Json.IsWhole n.whole :=
  isWhole_of_digits n.whole_ne_nil (fun c hc => n.digits c (List.mem_append_left _ hc)) h

namespace Decimal

/-- The number that a decimal stands for. -/
def value (d : Decimal) : ℚ := d.coefficient * 10 ^ d.exponent

/-- A numeral that spells a decimal: of the same value, and with digits of a JSON number. -/
structure IsSpelledBy (d : Decimal) (spelling : List Char) (n : ScaledNumeral) : Prop where
  text_eq : spelling = n.text
  value_eq : n.value = d.value
  isWhole : Json.IsWhole n.numeral.whole

variable {k : Nat}

/-- Written out with a point and a zero behind it. -/
theorem exists_isSpelledBy_ofNat {zeros : Nat} (hk : k = 0 → zeros = 0) : ∃ n,
    (⟨k, .ofNat zeros⟩ : Decimal).IsSpelledBy ((⟨k, .ofNat zeros⟩ : Decimal).positional ++ ['.', '0']) n := by
  have hunits := isNumeral_positional_ofNat k zeros
  have hnum : IsNumeral ((⟨k, .ofNat zeros⟩ : Decimal).positional ++ ['.', '0'])
      (Nat.toDigits 10 k ++ List.replicate zeros '0') ['0'] :=
    { text_eq := rfl
      whole_ne_nil := hunits.whole_ne_nil
      digits := List.forall_mem_append.2 ⟨fun c hc => hunits.digits c (List.mem_append_left _ hc),
        List.forall_mem_singleton.2 rfl⟩ }
  obtain ⟨n, htext, hwhole, hfraction⟩ := Numeral.exists_of_isNumeral hnum
  refine ⟨⟨n, none⟩, ?_, ?_, ?_⟩
  · rw [ScaledNumeral.text_none, htext]
  · have hzero : Nat.ofDigitChars 10 ['0'] 0 = 0 := by decide
    rw [ScaledNumeral.value_none, Numeral.value, hwhole, hfraction, ofDigitChars_toDigits_append, hzero, value]
    simp
  · refine n.isWhole_of_head ?_
    rw [hwhole]
    rcases Nat.eq_zero_or_pos k with rfl | hpos
    · rw [hk rfl]
      exact .inl rfl
    · rw [List.head?_append_of_ne_nil _ Nat.toDigits_ne_nil]
      exact .inr (head_toDigits_ne_zero (by decide) hpos)

/-- Written out with a point before some of the digits. -/
theorem exists_isSpelledBy_negSucc (hk : 0 < k) (places : Nat) : ∃ n,
    (⟨k, .negSucc places⟩ : Decimal).IsSpelledBy (⟨k, .negSucc places⟩ : Decimal).positional n := by
  obtain ⟨whole, fraction, hnum, hlen, hval, hfirst⟩ := exists_isNumeral_positional_negSucc k places
  obtain ⟨n, htext, rfl, rfl⟩ := Numeral.exists_of_isNumeral hnum
  refine ⟨⟨n, none⟩, ?_, ?_, ?_⟩
  · rw [ScaledNumeral.text_none, htext]
  · rw [ScaledNumeral.value_none, Numeral.value_eq, hval, hlen, value]
    simp [zpow_negSucc, div_eq_mul_inv]
  · refine n.isWhole_of_head (hfirst.imp_right fun hprefix => ?_)
    obtain ⟨more, hmore⟩ := hprefix
    have hhead := head_toDigits_ne_zero (b := 10) (by decide) hk
    rwa [← hmore, List.head?_append_of_ne_nil _ n.whole_ne_nil] at hhead

/-- Written with an exponent. -/
theorem exists_isSpelledBy_scientific (d : Decimal) : ∃ n, d.IsSpelledBy d.scientific n := by
  obtain ⟨c, cs, hcs⟩ := List.exists_cons_of_ne_nil (Nat.toDigits_ne_nil (n := d.coefficient) (b := 10))
  have hdigits : ∀ c' ∈ c :: cs, Segment.isDigit c' = true := by
    rw [← hcs]
    exact fun _ => isDigit_of_mem_toDigits
  refine ⟨⟨⟨[c], cs, List.cons_ne_nil _ _, hdigits⟩, some d.leadingExponent⟩, ?_, ?_, ?_⟩
  · rw [scientific, digits, hcs, ScaledNumeral.text, Numeral.text, String.toList_ofList]
    cases cs <;> rfl
  · have hval : Nat.ofDigitChars 10 (c :: cs) 0 = d.coefficient := by rw [← hcs, Nat.ofDigitChars_ten_toDigits]
    have hexponent : d.leadingExponent = cs.length + d.exponent := by
      rw [leadingExponent, digits, hcs, List.length_cons]
      omega
    rw [ScaledNumeral.value, Numeral.value_eq, List.singleton_append, hval, value, hexponent]
    rw [Option.getD_some, zpow_add₀ (by norm_num), zpow_natCast, ← mul_assoc, div_mul_cancel₀ _ (by positivity)]
  · refine Numeral.isWhole_of_head ?_
    by_cases hc : c = '0'
    · exact .inl (congrArg (List.cons · []) hc)
    · exact .inr (by simpa using hc)

/-- **A decimal is spelled by a numeral** of the same value. -/
theorem exists_isSpelledBy {d : Decimal} (hd : d.coefficient = 0 → d.exponent = 0) :
    ∃ n, d.IsSpelledBy d.jsonSpelling n := by
  obtain ⟨k, exponent⟩ := d
  rw [jsonSpelling]
  split
  · cases exponent with
    | ofNat zeros =>
      have hnonneg : 0 ≤ (⟨k, .ofNat zeros⟩ : Decimal).exponent := Int.natCast_nonneg zeros
      rw [if_pos hnonneg]
      exact exists_isSpelledBy_ofNat fun hk => Int.ofNat_eq_zero.1 (hd hk)
    | negSucc places =>
      have hneg : ¬ 0 ≤ (⟨k, .negSucc places⟩ : Decimal).exponent := Int.not_le.2 (Int.negSucc_lt_zero places)
      rw [if_neg hneg]
      exact exists_isSpelledBy_negSucc (Nat.pos_of_ne_zero fun hk => nomatch hd hk) places
  · exact exists_isSpelledBy_scientific _

end Decimal

/-! ## Numbers -/

/-- Equal multiples of powers of ten are equal in any unit. -/
theorem mul_pow_ten_eq {k k' p p' c : Nat} (h : (k : ℚ) * 10 ^ ((p : Int) - c) = k' * 10 ^ ((p' : Int) - c)) :
    k * Nat.pow 10 p = k' * Nat.pow 10 p' := by
  have hten : (10 : ℚ) ≠ 0 := by norm_num
  have hunits (p : Nat) : (10 : ℚ) ^ ((p : Int) - c) * 10 ^ c = 10 ^ p := by
    rw [← zpow_natCast, ← zpow_natCast, ← zpow_add₀ hten, Int.sub_add_cancel]
  have hscaled := congrArg (· * (10 : ℚ) ^ c) h
  simp only [mul_assoc, hunits] at hscaled
  simp only [Nat.pow_eq]
  exact_mod_cast hscaled

/-- **The value of the fewest digits says which number they are of.** -/
theorem Magnitude.eq_of_value_shortest {m m' : Magnitude} {tie : TieRule}
    (h : (m.shortest tie).value = (m'.shortest tie).value) : m = m' := by
  obtain ⟨k, p, hdecimal, hcontains, -⟩ := m.exists_shortest tie
  obtain ⟨k', p', hdecimal', hcontains', -⟩ := m'.exists_shortest tie
  rw [hdecimal, hdecimal', Decimal.value, Decimal.value] at h
  rw [← mul_pow_ten_eq h] at hcontains'
  rw [← nearest_of_contains unitsInStep_pos hcontains rfl, ← nearest_of_contains unitsInStep_pos hcontains' rfl]

namespace Binary64

variable {m m' : Magnitude}

/-- The fewest digits are spelled by a numeral. -/
theorem exists_isSpelledBy_shortest (m : Magnitude) : ∃ n,
    (m.shortest .even).IsSpelledBy (m.shortest .even).jsonSpelling n := by
  obtain ⟨k, p, hdecimal, -, hzero⟩ := m.exists_shortest .even
  rw [hdecimal]
  refine Decimal.exists_isSpelledBy fun hk => ?_
  rw [hzero hk]
  rfl

/-- With a minus or without, they are a JSON number. -/
theorem isNumber_jsonSpelling (m : Magnitude) {minus : List Char} (hminus : minus ∈ [[], ['-']]) :
    Json.IsNumber (minus ++ (m.shortest .even).jsonSpelling) := by
  obtain ⟨n, hn⟩ := exists_isSpelledBy_shortest m
  rw [hn.text_eq]
  exact ScaledNumeral.isNumber_text hn.isWhole hminus

theorem toJson_signed (hm : m.isInfinite = false) (s : Bool) : (signed s m).toJson =
    .number (if s then '-' :: (m.shortest .even).jsonSpelling else (m.shortest .even).jsonSpelling) := by
  rw [toJson, if_neg (by simp [hm])]

theorem eq_of_jsonSpelling (h : (m.shortest .even).jsonSpelling = (m'.shortest .even).jsonSpelling) : m = m' := by
  obtain ⟨n, hn⟩ := exists_isSpelledBy_shortest m
  obtain ⟨n', hn'⟩ := exists_isSpelledBy_shortest m'
  rw [hn.text_eq, hn'.text_eq] at h
  have hvalue : (m.shortest .even).value = (m'.shortest .even).value := by
    rw [← hn.value_eq, ← hn'.value_eq, ScaledNumeral.text_inj h]
  exact Magnitude.eq_of_value_shortest hvalue

/-- No number without a sign is dumped with one. -/
theorem jsonSpelling_ne_minus (m : Magnitude) (cs : List Char) : (m.shortest .even).jsonSpelling ≠ '-' :: cs := by
  obtain ⟨n, hn⟩ := exists_isSpelledBy_shortest m
  obtain ⟨c, cs', hcs, hdigit⟩ := n.exists_text_eq_cons
  rw [hn.text_eq, hcs]
  intro h
  obtain rfl : c = '-' := (List.cons.inj h).1
  cases hdigit

/-- **Finite numbers that are dumped alike are equal**, the sign of zero included. -/
theorem toJson_inj {x y : Binary64} (hx : x.isFinite = true) (hy : y.isFinite = true) (h : x.toJson = y.toJson) :
    x = y := by
  obtain _ | ⟨s, m⟩ := x
  · cases hx
  obtain _ | ⟨t, m'⟩ := y
  · cases hy
  have hm : m.isInfinite = false := by simpa [isFinite] using hx
  have hm' : m'.isInfinite = false := by simpa [isFinite] using hy
  rw [toJson_signed hm, toJson_signed hm', Json.number.injEq] at h
  cases s with
  | false =>
    cases t with
    | false => rw [eq_of_jsonSpelling h]
    | true => exact absurd h (jsonSpelling_ne_minus m _)
  | true =>
    cases t with
    | false => exact absurd h.symm (jsonSpelling_ne_minus m' _)
    | true => rw [eq_of_jsonSpelling (List.cons.inj h).2]

end Binary64

end LoxCalc
