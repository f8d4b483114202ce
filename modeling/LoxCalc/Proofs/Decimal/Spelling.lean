import LoxCalc.Proofs.Decimal.Numerals

/-!
# LoxCalc.Proofs.Decimal.Spelling — a spelling says which number it spells

Numbers are written in several ways, which differ in the digits of whole numbers and in the name of infinity.  All of
them are spellings in one sense: the text of a numeral that reads as the number, a name for what is not finite, and a
minus in front of a number with a sign (`Binary64.IsSpelling`).  A spelling is a word, and no two numbers have one in
common (`IsSpelling.unique`).
-/

namespace LoxCalc

open Segment

/-! ## Spellings -/

namespace Binary64

/-- The names of infinity. -/
def infinityNames : List String := ["Infinity", "inf"]

/-- What spellings are made of beside digits. -/
def nonDigits : List Char := "-.NaInfity".toList

/-- The spellings of a number. -/
inductive IsSpelling : Binary64 → String → Prop
  | nan : IsSpelling .nan "NaN"
  | infinity {name : String} (h : name ∈ infinityNames) : IsSpelling (.signed false .infinity) name
  | numeral (n : Numeral) {m : Magnitude} (hm : m.isInfinite = false) (h : n.number = .signed false m) :
      IsSpelling (.signed false m) n.text
  | minus {m : Magnitude} {size : String} (h : IsSpelling (.signed false m) size) :
      IsSpelling (.signed true m) ("-" ++ size)

/-- What the first character of a spelling is taken for: a digit, a name, or a sign. -/
def openingOf (c : Char) : Char := if isDigit c then '0' else if c = 'i' then 'I' else c

/-- What the spellings of a number begin with. -/
def opening : Binary64 → Char
  | .nan => 'N'
  | .signed true _ => '-'
  | .signed false m => if m.isInfinite then 'I' else '0'

theorem opening_mem (x : Binary64) : x.opening ∈ ['N', '-', 'I', '0'] := by
  rcases x with _ | ⟨_ | _, m⟩
  · exact List.mem_cons_self
  · cases hm : m.isInfinite <;> simp [opening, hm]
  · exact List.mem_cons_of_mem _ List.mem_cons_self

/-- Not-a-number, a sign, infinity and digits are told apart by how they begin. -/
theorem cases_of_opening {x y : Binary64} (h : x.opening = y.opening) : (x = .nan ∧ y = .nan) ∨
    (∃ m m', x = .signed true m ∧ y = .signed true m') ∨
    ∃ m m', x = .signed false m ∧ y = .signed false m' ∧ m.isInfinite = m'.isInfinite := by
  rcases x with _ | ⟨_ | _, m⟩
  · rcases y with _ | ⟨_ | _, m'⟩
    · exact .inl ⟨rfl, rfl⟩
    · cases hm : m'.isInfinite <;> simp [opening, hm] at h
    · simp [opening] at h
  · rcases y with _ | ⟨_ | _, m'⟩
    · cases hm : m.isInfinite <;> simp [opening, hm] at h
    · refine .inr (.inr ⟨m, m', rfl, rfl, ?_⟩)
      cases hm : m.isInfinite <;> cases hm' : m'.isInfinite <;> simp [opening, hm, hm'] at h ⊢
    · cases hm : m.isInfinite <;> simp [opening, hm] at h
  · rcases y with _ | ⟨_ | _, m'⟩
    · simp [opening] at h
    · cases hm : m'.isInfinite <;> simp [opening, hm] at h
    · exact .inr (.inl ⟨m, m', rfl, rfl⟩)

namespace IsSpelling

variable {x y : Binary64} {m m' : Magnitude} {s : String}

/-- The spelling of a number with or without a sign, given one without. -/
theorem signed (h : IsSpelling (.signed false m) s) (negative : Bool) :
    IsSpelling (.signed negative m) (if negative then "-" ++ s else s) := by
  cases negative with
  | false => exact h
  | true => exact .minus h

/-- What is said of everything that spellings are made of is said of each spelling. -/
theorem forall_mem {P : Char → Prop} (hdigit : ∀ c, isDigit c = true → P c) (hother : ∀ c ∈ nonDigits, P c)
    (h : IsSpelling x s) : ∀ c ∈ s.toList, P c := by
  have hof {cs : List Char} (hcs : cs ⊆ nonDigits) : ∀ c ∈ cs, P c := fun c hc => hother c (hcs hc)
  induction h with
  | nan => exact hof (by decide)
  | infinity h =>
    have hall : ∀ name ∈ infinityNames, name.toList ⊆ nonDigits := by decide
    exact hof (hall _ h)
  | numeral n hm h => exact n.forall_mem_text hdigit (hother _ (by decide))
  | minus h ih =>
    rw [String.toList_append]
    exact List.forall_mem_append.2 ⟨hof (by decide), ih⟩

theorem isWord (h : IsSpelling x s) : IsWord s.toList := by
  have hothers : IsWord nonDigits := by decide
  refine h.forall_mem (fun c hc => ?_) hothers
  by_contra hd
  simp only [delimitsWord, Bool.not_eq_false, Bool.or_eq_true, beq_iff_eq] at hd
  obtain (rfl | rfl) | rfl := hd <;> cases hc

theorem exists_head (h : IsSpelling x s) : ∃ c, s.toList.head? = some c ∧ openingOf c = x.opening := by
  cases h with
  | nan => exact ⟨'N', rfl, rfl⟩
  | infinity h =>
    have hall : ∀ name ∈ infinityNames, name.toList.head?.map openingOf = some 'I' := by decide
    exact Option.map_eq_some_iff.1 (hall _ h)
  | numeral n hm h =>
    obtain ⟨c, hc, hdigit⟩ := n.form.number_head
    refine ⟨c, hc, ?_⟩
    rw [openingOf, if_pos hdigit, opening, hm, if_neg Bool.false_ne_true]
  | minus h => exact ⟨'-', by rw [String.toList_append]; rfl, rfl⟩

/-- A text that begins otherwise begins with no spelling. -/
theorem append_ne (h : IsSpelling x s) {d : Char} (hd : openingOf d ∉ ['N', '-', 'I', '0']) (cs ds : List Char) :
    s.toList ++ cs ≠ d :: ds := by
  intro heq
  obtain ⟨c, hc, hopening⟩ := h.exists_head
  have hhead : (s.toList ++ cs).head? = some c := by
    rw [List.head?_append, hc]
    rfl
  rw [heq] at hhead
  obtain rfl : d = c := Option.some.inj hhead
  exact hd (hopening ▸ x.opening_mem)

theorem exists_size (h : IsSpelling (.signed true m) s) :
    ∃ size, s = "-" ++ size ∧ IsSpelling (.signed false m) size := by
  cases h with
  | minus h => exact ⟨_, rfl, h⟩

theorem exists_numeral (h : IsSpelling (.signed false m) s) (hm : m.isInfinite = false) : ∃ n : Numeral,
    s = n.text ∧ n.number = .signed false m := by
  cases h with
  | infinity _ => cases hm
  | numeral n _ hn => exact ⟨n, rfl, hn⟩

/-- Two numbers with one spelling begin alike. -/
theorem opening_eq (h : IsSpelling x s) (h' : IsSpelling y s) : x.opening = y.opening := by
  obtain ⟨c, hc, hopening⟩ := h.exists_head
  obtain ⟨d, hd, hopening'⟩ := h'.exists_head
  obtain rfl : c = d := Option.some.inj (hc.symm.trans hd)
  exact hopening.symm.trans hopening'

theorem unique_of_unsigned (h : IsSpelling (.signed false m) s) (h' : IsSpelling (.signed false m') s) : m = m' := by
  have hm : m.isInfinite = m'.isInfinite := by
    rcases cases_of_opening (h.opening_eq h') with ⟨heq, _⟩ | ⟨_, _, heq, _⟩ | ⟨_, _, heq, heq', hm⟩
    · cases heq
    · cases heq
    · cases heq
      cases heq'
      exact hm
  cases hinf : m.isInfinite with
  | true => rw [Magnitude.eq_infinity hinf, Magnitude.eq_infinity (hm.symm.trans hinf)]
  | false =>
    obtain ⟨n, rfl, hn⟩ := h.exists_numeral hinf
    obtain ⟨n', htext, hn'⟩ := h'.exists_numeral (hm.symm.trans hinf)
    rw [Numeral.text_inj htext, hn'] at hn
    exact (signed.inj hn).2.symm

/-- **A spelling says which number it spells.** -/
theorem unique (h : IsSpelling x s) (h' : IsSpelling y s) : x = y := by
  obtain ⟨rfl, rfl⟩ | ⟨m, m', rfl, rfl⟩ | ⟨m, m', rfl, rfl, -⟩ := cases_of_opening (h.opening_eq h')
  · rfl
  · obtain ⟨size, rfl, hsize⟩ := h.exists_size
    obtain ⟨size', heq, hsize'⟩ := h'.exists_size
    obtain rfl : size = size' := (String.append_right_inj _).1 heq
    rw [hsize.unique_of_unsigned hsize']
  · rw [h.unique_of_unsigned h']

end IsSpelling

end Binary64

end LoxCalc
