import LoxCalc.Expr.Eval

/-!
# LoxCalc.Proofs.Expr.Refusals — which values an operator refuses, and why

`RefusesUnary` and `RefusesBinary` are all ways in which an operator, of whatever kind, refuses the values of its
operands.  `Value.applyUnary` and `Value.applyBinary` fail for these causes and no others.
-/

namespace LoxCalc

/-- Why a prefix operator refuses a value: a minus wants a number, and only two operators are known. -/
inductive RefusesUnary (op : Token) (v : Value) : EvalCause → Prop
  | notNumber (hk : op.kind = .minus) (hv : ∀ x, v ≠ .number x) : RefusesUnary op v .operandNotNumber
  | unknown (hminus : op.kind ≠ .minus) (hbang : op.kind ≠ .bang) : RefusesUnary op v (.unknownUnary op.lexeme)

/-- The binary operators that want two numbers. -/
def numericOperators : List TokenKind := [.minus, .slash, .star, .greater, .greaterEqual, .less, .lessEqual]

/-- Why a binary operator refuses two values: a plus wants two numbers or two strings, the numeric operators two
numbers, the two equalities take anything, and no others are known. -/
inductive RefusesBinary (op : Token) (v w : Value) : EvalCause → Prop
  | notAddable (hk : op.kind = .plus) (hnumbers : ∀ x y, ¬ (v = .number x ∧ w = .number y))
      (hstrings : ∀ s t, ¬ (v = .str s ∧ w = .str t)) : RefusesBinary op v w .operandsNotAddable
  | notNumbers (hk : op.kind ∈ numericOperators) (hnumbers : ∀ x y, ¬ (v = .number x ∧ w = .number y)) :
      RefusesBinary op v w .operandsNotNumbers
  | unknown (hk : op.kind ∉ .plus :: .equalEqual :: .bangEqual :: numericOperators) :
      RefusesBinary op v w (.unknownBinary op.lexeme)

section RefusesBinary

variable {op : Token} {v w : Value} {cause : EvalCause}

theorem refusesBinary_of_plus (hk : op.kind = .plus) : RefusesBinary op v w cause ↔ cause = .operandsNotAddable ∧
    (∀ x y, ¬ (v = .number x ∧ w = .number y)) ∧ ∀ s t, ¬ (v = .str s ∧ w = .str t) := by
  constructor
  · rintro (⟨-, hnumbers, hstrings⟩ | ⟨hk', -⟩ | hk')
    · exact ⟨rfl, hnumbers, hstrings⟩
    · rw [hk] at hk'
      contradiction
    · simp [hk] at hk'
  · rintro ⟨rfl, hnumbers, hstrings⟩
    exact .notAddable hk hnumbers hstrings

theorem refusesBinary_of_numeric (hk : op.kind ∈ numericOperators) : RefusesBinary op v w cause ↔
    cause = .operandsNotNumbers ∧ ∀ x y, ¬ (v = .number x ∧ w = .number y) := by
  constructor
  · rintro (⟨hk', -, -⟩ | ⟨-, hnumbers⟩ | hk')
    · rw [hk'] at hk
      contradiction
    · exact ⟨rfl, hnumbers⟩
    · simp [hk] at hk'
  · rintro ⟨rfl, hnumbers⟩
    exact .notNumbers hk hnumbers

theorem not_refusesBinary_of_equality (hk : op.kind = .equalEqual ∨ op.kind = .bangEqual) :
    ¬ RefusesBinary op v w cause := by
  rintro (⟨hk', -, -⟩ | ⟨hk', -⟩ | hk')
  · simp [hk'] at hk
  · rcases hk with hk | hk <;> rw [hk] at hk' <;> contradiction
  · rcases hk with hk | hk <;> simp [hk] at hk'

theorem refusesBinary_of_unknown (hk : op.kind ∉ .plus :: .equalEqual :: .bangEqual :: numericOperators) :
    RefusesBinary op v w cause ↔ cause = .unknownBinary op.lexeme := by
  constructor
  · rintro (⟨hk', -, -⟩ | ⟨hk', -⟩ | -)
    · simp [hk'] at hk
    · simp [hk'] at hk
    · rfl
  · rintro rfl
    exact .unknown hk

end RefusesBinary

namespace Value

variable {op : Token} {v w : Value} {cause : EvalCause}

theorem applyUnary_eq_error_iff : v.applyUnary op = .error cause ↔ RefusesUnary op v cause := by
  unfold applyUnary
  constructor
  · intro h
    split at h
    · cases h
    · rename_i hk
      split at h
      · cases h
      · rename_i hv
        cases h
        exact .notNumber hk hv
    · rename_i hbang hminus
      cases h
      exact .unknown hminus hbang
  · rintro (⟨hk, hv⟩ | ⟨hminus, hbang⟩)
    · rw [hk]
      cases v <;> first | rfl | exact absurd rfl (hv _)
    · split <;> first | rfl | contradiction

theorem onNumbers_eq_error_iff {operation : Binary64 → Binary64 → Value} :
    onNumbers operation v w = .error cause ↔
      cause = .operandsNotNumbers ∧ ∀ x y, ¬ (v = .number x ∧ w = .number y) := by
  cases v <;> cases w <;> simp [onNumbers, eq_comm]

theorem plus_eq_error_iff : plus v w = .error cause ↔ cause = .operandsNotAddable ∧
    (∀ x y, ¬ (v = .number x ∧ w = .number y)) ∧ ∀ s t, ¬ (v = .str s ∧ w = .str t) := by
  cases v <;> cases w <;> simp [plus, eq_comm]

theorem applyBinary_eq_error_iff : v.applyBinary op w = .error cause ↔ RefusesBinary op v w cause := by
  unfold applyBinary
  split
  case h_1 hk => rw [plus_eq_error_iff, refusesBinary_of_plus hk]
  case h_9 hk => simp [not_refusesBinary_of_equality (.inl hk)]
  case h_10 hk => simp [not_refusesBinary_of_equality (.inr hk)]
  case h_11 =>
    rw [refusesBinary_of_unknown (by simp_all [numericOperators]), Except.error.injEq, eq_comm]
  all_goals
    rename_i hk
    rw [onNumbers_eq_error_iff, refusesBinary_of_numeric (by rw [hk]; decide)]

end Value

end LoxCalc
