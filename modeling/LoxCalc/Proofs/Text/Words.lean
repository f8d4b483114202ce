/-!
# LoxCalc.Proofs.Text.Words — where words end, and numbers in digits

A word holds no space and no parenthesis, so where one of them follows, its end can be seen (`IsWord.append_inj`).  The
digits of a number say which number it is, in every base up to sixteen (`toDigits_inj`), and begin with a zero only if
they are a lone zero (`head_toDigits_ne_zero`).
-/

namespace LoxCalc

/-- Two texts end at the same place if the character that follows them is in neither. -/
theorem delimited_inj {d : Char} {cs ds rest rest' : List Char} (hcs : d ∉ cs) (hds : d ∉ ds)
    (h : cs ++ d :: rest = ds ++ d :: rest') : cs = ds ∧ rest = rest' := by
  have htake (cs rest : List Char) (hcs : d ∉ cs) : (cs ++ d :: rest).takeWhile (· != d) = cs := by
    have hbefore : ∀ c ∈ cs, (c != d) = true := fun c hc => bne_iff_ne.2 (ne_of_mem_of_not_mem hc hcs)
    rw [List.takeWhile_append_of_pos hbefore, List.takeWhile_cons_of_neg (by simp), List.append_nil]
  obtain rfl : cs = ds := by rw [← htake cs rest hcs, h, htake ds rest' hds]
  exact ⟨rfl, (List.cons.inj (List.append_cancel_left h)).2⟩

/-! ## Words -/

/-- The characters between words. -/
def delimitsWord (c : Char) : Bool := c == ' ' || c == '(' || c == ')'

def IsWord (w : List Char) : Prop := ∀ c ∈ w, delimitsWord c = false

instance (w : List Char) : Decidable (IsWord w) := List.decidableBAll (delimitsWord · = false) w

/-- A word may end before the text. -/
def EndsWord (cs : List Char) : Prop := ∀ c ∈ cs.head?, c = ' ' ∨ c = ')'

theorem endsWord_space (cs : List Char) : EndsWord (' ' :: cs) := by
  rintro c ⟨⟩
  exact .inl rfl

theorem endsWord_close (cs : List Char) : EndsWord (')' :: cs) := by
  rintro c ⟨⟩
  exact .inr rfl

namespace IsWord

variable {v w cs ds : List Char}

theorem takeWhile_append (hw : IsWord w) (hcs : EndsWord cs) : (w ++ cs).takeWhile (!delimitsWord ·) = w := by
  have hstops : cs.takeWhile (!delimitsWord ·) = [] := by
    cases cs with
    | nil => rfl
    | cons c cs => rcases hcs c rfl with rfl | rfl <;> rfl
  rw [List.takeWhile_append_of_pos fun c hc => by simp [hw c hc], hstops, List.append_nil]

/-- **Words end where they are delimited.** -/
theorem append_inj (hv : IsWord v) (hw : IsWord w) (hcs : EndsWord cs) (hds : EndsWord ds)
    (h : v ++ cs = w ++ ds) : v = w ∧ cs = ds := by
  obtain rfl : v = w := by rw [← hv.takeWhile_append hcs, h, hw.takeWhile_append hds]
  exact ⟨rfl, List.append_cancel_left h⟩

/-- No word begins with a parenthesis. -/
theorem append_ne (hw : IsWord w) (hcs : EndsWord cs) (ds : List Char) : w ++ cs ≠ '(' :: ds := by
  intro h
  cases w with
  | nil =>
    rw [List.nil_append] at h
    rcases hcs '(' (by rw [h]; rfl) with h | h <;> cases h
  | cons c w =>
    obtain rfl : c = '(' := (List.cons.inj h).1
    exact absurd (hw '(' List.mem_cons_self) (by decide)

end IsWord

/-! ## Digits -/

section Digits

variable {b n m : Nat}

theorem digitChar_inj (hn : n < 16) (hm : m < 16) (h : n.digitChar = m.digitChar) : n = m := by
  have hall : ∀ n < 16, ∀ m < 16, n.digitChar = m.digitChar → n = m := by decide
  exact hall n hn m hm h

/-- **The digits of a number say which it is.** -/
theorem toDigits_inj (hb : 1 < b) (hb' : b ≤ 16) (h : b.toDigits n = b.toDigits m) : n = m := by
  have hlast (k : Nat) : k % b < 16 := Nat.lt_of_lt_of_le (Nat.mod_lt k (Nat.zero_lt_of_lt hb)) hb'
  -- only the last of several digits has others in front of it
  have hlong (k l : Nat) : b.toDigits (k / b) ++ [(k % b).digitChar] ≠ [l.digitChar] := by
    rw [← List.nil_append [l.digitChar]]
    exact fun heq => Nat.toDigits_ne_nil (List.append_inj' heq rfl).1
  induction n using Nat.strongRecOn generalizing m with
  | ind n ih =>
    rw [Nat.toDigits_eq_if hb, Nat.toDigits_eq_if (n := m) hb] at h
    split at h
    · rename_i hn
      split at h
      · rename_i hm
        exact digitChar_inj (Nat.lt_of_lt_of_le hn hb') (Nat.lt_of_lt_of_le hm hb') (List.singleton_inj.1 h)
      · exact absurd h.symm (hlong m n)
    · rename_i hn
      split at h
      · exact absurd h (hlong n m)
      · obtain ⟨hfront, hback⟩ := List.append_inj' h rfl
        have hdiv := ih (n / b) (Nat.div_lt_self (by omega) hb) hfront
        have hmod := digitChar_inj (hlast n) (hlast m) (List.singleton_inj.1 hback)
        rw [← Nat.div_add_mod n b, hdiv, hmod, Nat.div_add_mod]

theorem exists_digitChar_of_mem_toDigits (hb : 1 < b) {c : Char} (hc : c ∈ b.toDigits n) :
    ∃ d < b, c = d.digitChar := by
  induction n using Nat.strongRecOn with
  | ind n ih =>
    rw [Nat.toDigits_eq_if hb] at hc
    split at hc
    · rename_i hn
      exact ⟨n, hn, List.mem_singleton.1 hc⟩
    · rename_i hn
      rcases List.mem_append.1 hc with hc | hc
      · exact ih (n / b) (Nat.div_lt_self (by omega) hb) hc
      · exact ⟨n % b, Nat.mod_lt n (by omega), List.mem_singleton.1 hc⟩

/-- No zero stands in front of other digits. -/
theorem head_toDigits_ne_zero (hb : 1 < b) (hn : 0 < n) : (b.toDigits n).head? ≠ some '0' := by
  induction n using Nat.strongRecOn with
  | ind n ih =>
    rw [Nat.toDigits_eq_if hb]
    split
    · rw [List.head?_cons, ne_eq, Option.some.injEq, Nat.digitChar_eq_zero]
      omega
    · have hfront := ih (n / b) (Nat.div_lt_self hn hb) (Nat.div_pos (by omega) (by omega))
      obtain ⟨c, cs, hcs⟩ := List.exists_cons_of_ne_nil (Nat.toDigits_ne_nil (n := n / b) (b := b))
      rw [hcs] at hfront ⊢
      exact hfront

end Digits

end LoxCalc
