import LoxCalc.Proofs.Expr.LispForm
import LoxCalc.Proofs.Expr.Sorts

/-!
# LoxCalc.Proofs.Expr.Equality — the laws of equality, and what it has to do with display

Values are equal in the language if they are the same, apart from not-a-number, which is not equal to itself, and from
the two zeros, which are equal (`Value.equal_iff`).  So equality is symmetric and transitive.  Values of one sort that
are displayed alike are the same (`Value.eq_of_display_eq`); equal values are displayed alike unless they are the two
zeros (`Value.display_eq_iff_of_equal`).
-/

namespace LoxCalc

/-! ## Numbers -/

theorem Magnitude.steps_injective {m m' : Magnitude} (h : m.steps = m'.steps) : m = m' := by
  have hposition := stepsAt_strictMono.injective h
  cases m
  cases m'
  obtain rfl := hposition
  rfl

theorem Magnitude.eq_zero_of_steps {m : Magnitude} (h : m.steps = 0) : m = .zero := steps_injective h

namespace Binary64

variable {x y : Binary64}

/-- One of them is zero, the other one the zero of opposite sign. -/
def AreOppositeZeros (x y : Binary64) : Prop := ∃ s, x = .signed s .zero ∧ y = .signed (!s) .zero

/-- **Numbers are equal** if they are the same number, or the two zeros. -/
theorem equal_iff : x.equal y = true ↔ (x = y ∧ x ≠ .nan) ∨ AreOppositeZeros x y := by
  constructor
  · intro h
    obtain _ | ⟨s, m⟩ := x
    · cases h
    obtain _ | ⟨t, m'⟩ := y
    · simp [equal, steps?] at h
    simp only [equal, steps?, beq_iff_eq] at h
    by_cases hsign : s = t
    · subst hsign
      have hsteps : m.steps = m'.steps := by cases s <;> simpa using h
      rw [Magnitude.steps_injective hsteps]
      exact .inl ⟨rfl, by rintro ⟨⟩⟩
    · -- only zero is the opposite of itself
      have hzero : m.steps = 0 ∧ m'.steps = 0 := by cases s <;> cases t <;> simp at hsign h <;> omega
      rw [Magnitude.eq_zero_of_steps hzero.1, Magnitude.eq_zero_of_steps hzero.2]
      exact .inr ⟨s, rfl, by cases s <;> cases t <;> simp at hsign ⊢⟩
  · rintro (⟨rfl, hx⟩ | ⟨s, rfl, rfl⟩)
    · rw [equal_self]
      cases x with
      | nan => exact absurd rfl hx
      | signed s m => rfl
    · cases s <;> rfl

end Binary64

/-! ## Values -/

namespace Value

variable {u v w : Value}

/-- The values are the two zeros, one and the other. -/
def AreOppositeZeros (v w : Value) : Prop := ∃ s, v = .number (.signed s .zero) ∧ w = .number (.signed (!s) .zero)

theorem areOppositeZeros_number {x y : Binary64} :
    AreOppositeZeros (number x) (number y) ↔ x.AreOppositeZeros y := by
  simp [AreOppositeZeros, Binary64.AreOppositeZeros]

/-- **Values are equal** if they are the same and not not-a-number, or the two zeros. -/
theorem equal_iff : v.equal w = true ↔ (v = w ∧ v ≠ .number .nan) ∨ AreOppositeZeros v w := by
  cases v with
  | number x =>
    cases w with
    | number y => simp [equal, Binary64.equal_iff, areOppositeZeros_number]
    | nil | bool _ | str _ => simp [equal, AreOppositeZeros]
  | nil | bool _ | str _ => cases w <;> simp [equal, AreOppositeZeros]

theorem AreOppositeZeros.eq (h : AreOppositeZeros u v) (h' : AreOppositeZeros v w) : u = w ∧ u ≠ .number .nan := by
  obtain ⟨s, rfl, rfl⟩ := h
  obtain ⟨t, ht, rfl⟩ := h'
  obtain rfl : (!s) = t := (Binary64.signed.inj (number.inj ht)).1
  rw [Bool.not_not]
  exact ⟨rfl, by rintro ⟨⟩⟩

theorem equal_trans (h : u.equal v = true) (h' : v.equal w = true) : u.equal w = true := by
  rw [equal_iff] at *
  rcases h with ⟨rfl, hu⟩ | h
  · exact h'
  · rcases h' with ⟨rfl, -⟩ | h'
    · exact .inr h
    · exact .inl (h.eq h')

theorem equal_self (v : Value) : v.equal v = true ↔ v ≠ .number .nan := by
  rw [equal_iff]
  constructor
  · rintro (⟨-, hv⟩ | ⟨s, rfl, -⟩)
    · exact hv
    · rintro ⟨⟩
  · exact fun hv => .inl ⟨rfl, hv⟩

theorem sort_eq_of_equal (h : v.equal w = true) : v.sort = w.sort := by
  rcases equal_iff.1 h with ⟨rfl, -⟩ | ⟨s, rfl, rfl⟩ <;> rfl

/-! ### Display -/

theorem display_ne_of_areOppositeZeros (h : AreOppositeZeros v w) : v.display ≠ w.display := by
  have hall : ∀ s, (number (.signed s .zero)).display ≠ (number (.signed (!s) .zero)).display := by decide +kernel
  obtain ⟨s, rfl, rfl⟩ := h
  exact hall s

/-- **Equal values are displayed alike**, the two zeros apart. -/
theorem display_eq_iff_of_equal (h : v.equal w = true) : v.display = w.display ↔ ¬ AreOppositeZeros v w := by
  constructor
  · exact fun hdisplay hzeros => display_ne_of_areOppositeZeros hzeros hdisplay
  · intro hzeros
    rcases equal_iff.1 h with ⟨rfl, -⟩ | h
    · rfl
    · exact absurd h hzeros

/-- **Values of one sort that are displayed alike are the same.** -/
theorem eq_of_display_eq (hsort : v.sort = w.sort) (h : v.display = w.display) : v = w := by
  have hstr {v : Value} (hv : v.sort ≠ .str) (s : String) : v ≠ str s := by
    rintro rfl
    exact hv rfl
  by_cases hv : v.sort = .str
  · cases v <;> cases hv
    cases w <;> cases hsort
    exact congrArg str h
  · exact display_inj (hstr hv) (hstr (hsort ▸ hv)) h

end Value

/-! ## Expressions -/

namespace Expr

variable {a b c : Expr} {u v w : Value} {eq ne : Token}

theorem eval_equalEqual (ha : a.eval = .ok v) (hb : b.eval = .ok w) (heq : eq.kind = .equalEqual) :
    (binary a eq b).eval = .ok (.bool (v.equal w)) := by
  rw [eval_binary, ha, Except.bind, hb, Except.bind, Value.applyBinary, heq]
  rfl

theorem eval_bangEqual (ha : a.eval = .ok v) (hb : b.eval = .ok w) (hne : ne.kind = .bangEqual) :
    (binary a ne b).eval = .ok (.bool !(v.equal w)) := by
  rw [eval_binary, ha, Except.bind, hb, Except.bind, Value.applyBinary, hne]
  rfl

/-- The laws of `==` and `!=` for expressions of which the first two have the values `v` and `w`. -/
structure EqualityLaws (a b c : Expr) (v w : Value) (eq ne : Token) : Prop where
  opposite : ∃ same : Bool, (binary a eq b).eval = .ok (.bool same) ∧ (binary a ne b).eval = .ok (.bool !same)
  symmetric : (binary a eq b).eval = (binary b eq a).eval
  transitive : (binary a eq b).eval = .ok (.bool true) → (binary b eq c).eval = .ok (.bool true) →
    (binary a eq c).eval = .ok (.bool true)
  /-- Only not-a-number differs from itself. -/
  reflexive_iff : (binary a eq a).eval = .ok (.bool true) ↔ v ≠ .number .nan
  /-- Values of different sorts are never equal. -/
  of_sort_ne : v.sort ≠ w.sort → (binary a eq b).eval = .ok (.bool false)
  /-- Equal values are displayed alike, the two zeros apart. -/
  display_eq_iff : (binary a eq b).eval = .ok (.bool true) → (v.display = w.display ↔ ¬ v.AreOppositeZeros w)
  /-- Values of one sort that are displayed alike are equal, not-a-number apart. -/
  of_display_eq : v.sort = w.sort → v.display = w.display →
    ((binary a eq b).eval = .ok (.bool true) ↔ ¬ (v = .number .nan ∧ w = .number .nan))

/-- **The laws of equality** hold for all expressions with values.  The two zeros are equal and are displayed in two
ways. -/
theorem equality_laws (ha : a.eval = .ok v) (hb : b.eval = .ok w) (hc : c.eval = .ok u)
    (heq : eq.kind = .equalEqual) (hne : ne.kind = .bangEqual) :
    EqualityLaws a b c v w eq ne ∧
    (Value.number (.signed false .zero)).equal (.number (.signed true .zero)) = true ∧
    (Value.number (.signed false .zero)).display = "0" ∧ (Value.number (.signed true .zero)).display = "-0" := by
  have htrue {a b : Expr} {v w : Value} (ha : a.eval = .ok v) (hb : b.eval = .ok w) :
      (binary a eq b).eval = .ok (.bool true) ↔ v.equal w = true := by
    rw [eval_equalEqual ha hb heq, Except.ok.injEq, Value.bool.injEq]
  refine ⟨⟨?_, ?_, ?_, ?_, ?_, ?_, ?_⟩, by decide, by decide +kernel, by decide +kernel⟩
  · exact ⟨_, eval_equalEqual ha hb heq, eval_bangEqual ha hb hne⟩
  · rw [eval_equalEqual ha hb heq, eval_equalEqual hb ha heq, Value.equal_symm]
  · rw [htrue ha hb, htrue hb hc, htrue ha hc]
    exact Value.equal_trans
  · rw [htrue ha ha, Value.equal_self]
  · intro hsort
    rw [eval_equalEqual ha hb heq, Bool.eq_false_iff.2 fun h => hsort (Value.sort_eq_of_equal h)]
  · rw [htrue ha hb]
    exact Value.display_eq_iff_of_equal
  · intro hsort hdisplay
    obtain rfl := Value.eq_of_display_eq hsort hdisplay
    rw [htrue ha hb, Value.equal_self, and_self]

def zeroLiteral : Expr := literal (.number (.signed false .zero))

def negatedZero : Expr := unary ⟨.minus, "-", none, 1⟩ zeroLiteral

def zeroByZero : Expr := binary zeroLiteral ⟨.slash, "/", none, 1⟩ zeroLiteral

/-- **The two zeros** are equal and displayed in two ways, and the quotient of zeros differs from itself. -/
theorem equality_laws_zeros :
    EqualityLaws zeroLiteral negatedZero (grouping zeroLiteral) (.number (.signed false .zero))
      (.number (.signed true .zero)) ⟨.equalEqual, "==", none, 1⟩ ⟨.bangEqual, "!=", none, 1⟩ ∧
    (binary zeroLiteral ⟨.equalEqual, "==", none, 1⟩ negatedZero).eval = .ok (.bool true) ∧
    EqualityLaws zeroByZero zeroByZero zeroLiteral (.number .nan) (.number .nan) ⟨.equalEqual, "==", none, 1⟩
      ⟨.bangEqual, "!=", none, 1⟩ ∧
    (binary zeroByZero ⟨.bangEqual, "!=", none, 1⟩ zeroByZero).eval = .ok (.bool true) := by
  have hzero : zeroLiteral.eval = .ok (.number (.signed false .zero)) := rfl
  have hnegated : negatedZero.eval = .ok (.number (.signed true .zero)) := rfl
  have hgrouped : (grouping zeroLiteral).eval = .ok (.number (.signed false .zero)) := rfl
  have hquotient : zeroByZero.eval = .ok (.number .nan) := by decide
  exact ⟨(equality_laws hzero hnegated hgrouped rfl rfl).1, by decide,
    (equality_laws hquotient hquotient hzero rfl rfl).1, by decide⟩

end Expr

end LoxCalc
