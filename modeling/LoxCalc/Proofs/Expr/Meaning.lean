import LoxCalc.Proofs.Expr.SourceNesting

/-!
# LoxCalc.Proofs.Expr.Meaning — a printed tree means what the tree means

* `Binary64.eval_printed`: a number that no numeral stands for is printed as an expression with exactly that value, the
  sign of zero included; so printing keeps the value of a tree, or its first fault (`eval_printed`).
* `eval_mapOperators`: evaluation looks at the kinds and texts of operator tokens only, and a fault carries the token.
* `run_source_sameOutcome`: running the printed form therefore gives the outcome of the tree, if its printed form keeps
  the limit of nesting.  Values and lines that the operator tokens carry are not printed, and play no part.
-/

namespace LoxCalc

open Segment

/-! ## Changing operator tokens -/

section MapOperators

variable {f : Token → Token}

/-- The token without a value and on line `0`. -/
def Token.bare (t : Token) : Token := { t with literal := none, line := 0 }

/-- The change leaves the kinds and the texts of tokens alone. -/
def KeepsText (f : Token → Token) : Prop := ∀ t, (f t).kind = t.kind ∧ (f t).lexeme = t.lexeme

theorem keepsText_bare : KeepsText Token.bare := fun _ => ⟨rfl, rfl⟩

theorem keepsText_unplaced : KeepsText Token.unplaced := fun _ => ⟨rfl, rfl⟩

theorem KeepsText.comp {g : Token → Token} (hg : KeepsText g) (hf : KeepsText f) : KeepsText (g ∘ f) :=
  fun t => ⟨(hg (f t)).1.trans (hf t).1, (hg (f t)).2.trans (hf t).2⟩

/-- The fault with its operator changed. -/
def RuntimeError.mapOperator (f : Token → Token) (e : RuntimeError) : RuntimeError :=
  { e with operator := f e.operator }

theorem mapError_bind {ε ε' α β : Type} (h : ε → ε') (x : Except ε α) (g : α → Except ε β) :
    (x.bind g).mapError h = (x.mapError h).bind fun a => (g a).mapError h := by
  cases x <;> rfl

theorem faultAt_mapOperator (op : Token) (answer : Except EvalCause Value) :
    faultAt (f op) answer = (faultAt op answer).mapError (.mapOperator f) := by
  cases answer <;> rfl

namespace Value

theorem applyUnary_of_keepsText (hf : KeepsText f) (op : Token) (v : Value) :
    v.applyUnary (f op) = v.applyUnary op := by
  unfold applyUnary
  rw [(hf op).1, (hf op).2]

theorem applyBinary_of_keepsText (hf : KeepsText f) (op : Token) (v w : Value) :
    v.applyBinary (f op) w = v.applyBinary op w := by
  unfold applyBinary
  rw [(hf op).1, (hf op).2]

end Value

namespace Expr

/-- The tree with all of its operator tokens changed. -/
def mapOperators (f : Token → Token) : Expr → Expr
  | literal v => literal v
  | grouping e => grouping (e.mapOperators f)
  | unary op e => unary (f op) (e.mapOperators f)
  | binary l op r => binary (l.mapOperators f) (f op) (r.mapOperators f)

theorem unplaced_eq_mapOperators (e : Expr) : e.unplaced = e.mapOperators Token.unplaced := by
  induction e with
  | literal v => rfl
  | grouping e ih => rw [unplaced, ih, mapOperators]
  | unary op e ih => rw [unplaced, ih, mapOperators]
  | binary l op r ihl ihr => rw [unplaced, ihl, ihr, mapOperators]

@[simp] theorem isCompound_mapOperators (e : Expr) : (e.mapOperators f).isCompound = e.isCompound := by
  cases e <;> rfl

/-- What is printed of an operator token is its text. -/
theorem source_mapOperators (hf : KeepsText f) (e : Expr) : (e.mapOperators f).source = e.source := by
  induction e with
  | literal v => rfl
  | grouping e ih => rw [mapOperators, source, ih, source]
  | unary op e ih => rw [mapOperators, source, ih, (hf op).2, isCompound_mapOperators, source]
  | binary l op r ihl ihr =>
    rw [mapOperators, source, ihl, ihr, (hf op).2, isCompound_mapOperators, isCompound_mapOperators, source]

theorem nesting_printed_mapOperators (e : Expr) : (e.mapOperators f).printed.nesting = e.printed.nesting := by
  induction e with
  | literal v => rfl
  | grouping e ih => simp only [mapOperators, printed, nesting, ih]
  | unary op e ih => simp only [mapOperators, printed, nesting, nesting_enclosed, isCompound_mapOperators, ih]
  | binary l op r ihl ihr =>
    simp only [mapOperators, printed, nesting, nesting_enclosed, isCompound_mapOperators, ihl, ihr]

theorem eval_unary (op : Token) (e : Expr) :
    (unary op e).eval = e.eval.bind fun v => faultAt op (v.applyUnary op) := rfl

theorem eval_binary (l : Expr) (op : Token) (r : Expr) :
    (binary l op r).eval = l.eval.bind fun v => r.eval.bind fun w => faultAt op (v.applyBinary op w) := rfl

/-- The prefix operators of the tree have the property `P`, its binary operators the property `Q`. -/
def OperatorsIn (P Q : Token → Prop) : Expr → Prop
  | literal _ => True
  | grouping e => e.OperatorsIn P Q
  | unary op e => P op ∧ e.OperatorsIn P Q
  | binary l op r => Q op ∧ l.OperatorsIn P Q ∧ r.OperatorsIn P Q

theorem operatorsIn_true (e : Expr) : e.OperatorsIn (fun _ => True) fun _ => True := by
  induction e with
  | literal v => trivial
  | grouping e ih => exact ih
  | unary op e ih => exact ⟨trivial, ih⟩
  | binary l op r ihl ihr => exact ⟨trivial, ihl, ihr⟩

/-- **Evaluation sees its operators applied only**: a change that they are applied alike after keeps the value, or the
fault, which carries the operator token. -/
theorem OperatorsIn.eval_mapOperators {P Q : Token → Prop}
    (hP : ∀ op, P op → ∀ v : Value, v.applyUnary (f op) = v.applyUnary op)
    (hQ : ∀ op, Q op → ∀ v w : Value, v.applyBinary (f op) w = v.applyBinary op w) {e : Expr}
    (h : e.OperatorsIn P Q) : (e.mapOperators f).eval = e.eval.mapError (.mapOperator f) := by
  induction e with
  | literal v => rfl
  | grouping e ih => exact ih h
  | unary op e ih =>
    have hop (v : Value) : faultAt (f op) (v.applyUnary (f op)) =
        (faultAt op (v.applyUnary op)).mapError (.mapOperator f) := by
      rw [hP op h.1, faultAt_mapOperator]
    rw [mapOperators, eval_unary, eval_unary, mapError_bind, ih h.2]
    simp only [hop]
  | binary l op r ihl ihr =>
    have hop (v w : Value) : faultAt (f op) (v.applyBinary (f op) w) =
        (faultAt op (v.applyBinary op w)).mapError (.mapOperator f) := by
      rw [hQ op h.1, faultAt_mapOperator]
    rw [mapOperators, eval_binary, eval_binary, mapError_bind, ihl h.2.1, ihr h.2.2]
    simp only [mapError_bind, hop]

/-- **Evaluation looks at the kinds and texts of operators only**; a fault carries the operator token. -/
theorem eval_mapOperators (hf : KeepsText f) (e : Expr) :
    (e.mapOperators f).eval = e.eval.mapError (.mapOperator f) :=
  (operatorsIn_true e).eval_mapOperators (fun op _ => Value.applyUnary_of_keepsText hf op)
    (fun op _ => Value.applyBinary_of_keepsText hf op)

end Expr

end MapOperators

/-! ## The value of a printed tree -/

section Quotients

open LoxCalc.Expr

theorem eval_quotient (x y : Binary64) :
    (grouping (binary (literal (.number x)) .slashSign (literal (.number y)))).eval = .ok (.number (x / y)) := rfl

theorem eval_negated_quotient (x y : Binary64) :
    (grouping (binary (unary .minusSign (literal (.number x))) .slashSign (literal (.number y)))).eval =
      .ok (.number (-x / y)) := rfl

/-- **A printed number has the value of the number**, whatever expression it is printed as. -/
theorem Binary64.eval_printed (x : Binary64) : x.printed.eval = .ok (.number x) := by
  have hnan : ofNumeral ['0'] [] / ofNumeral ['0'] [] = .nan := by decide +kernel
  have hpositive : ofNumeral ['1'] [] / ofNumeral ['0'] [] = .signed false .infinity := by decide +kernel
  have hnegative : -ofNumeral ['1'] [] / ofNumeral ['0'] [] = .signed true .infinity := by decide +kernel
  rcases x with _ | ⟨negative, m⟩
  · rw [printed, digit, eval_quotient, hnan]
  · rw [printed]
    by_cases hm : m.isInfinite = true
    · obtain rfl := Magnitude.eq_infinity hm
      rw [if_pos hm]
      cases negative with
      | false => rw [if_neg Bool.false_ne_true, digit, digit, eval_quotient, hpositive]
      | true => rw [if_pos rfl, digit, digit, eval_negated_quotient, hnegative]
    · rw [if_neg hm]
      cases negative with
      | false => rfl
      | true => rfl

end Quotients

namespace Expr

theorem eval_enclosed (b : Bool) (e : Expr) : (enclosed b e).eval = e.eval := by
  cases b <;> rfl

/-- **Printing keeps the value of a tree**, or its first fault. -/
theorem eval_printed (e : Expr) : e.printed.eval = e.eval := by
  induction e with
  | literal v =>
    cases v with
    | number x => exact x.eval_printed
    | _ => rfl
  | grouping e ih => exact ih
  | unary op e ih => rw [printed, eval_unary, eval_enclosed, ih, eval_unary]
  | binary l op r ihl ihr => rw [printed, eval_binary, eval_enclosed, eval_enclosed, ihl, ihr, eval_binary]

/-! ## Running the printed form -/

/-- Operators have the texts of their kinds, whatever else their tokens carry, and no string holds a quote. -/
def Writable : Expr → Prop
  | literal (.str s) => '"' ∉ s.toList
  | literal _ => True
  | grouping e => e.Writable
  | unary op e => op.kind.isPrefixOperator = true ∧ (op.lexeme.toList, op.kind) ∈ fixedTexts ∧ e.Writable
  | binary l op r =>
    op.kind.isBinaryOperator = true ∧ (op.lexeme.toList, op.kind) ∈ fixedTexts ∧ l.Writable ∧ r.Writable

theorem Writable.wellFormed_bare {e : Expr} (h : e.Writable) : (e.mapOperators .bare).WellFormed := by
  induction e with
  | literal v => cases v <;> exact h
  | grouping e ih => exact ih h
  | unary op e ih => exact ⟨h.1, ⟨h.2.1, rfl⟩, ih h.2.2⟩
  | binary l op r ihl ihr => exact ⟨h.1, ⟨h.2.1, rfl⟩, ihl h.2.2.1, ihr h.2.2.2⟩

end Expr

/-- A run and an evaluation give the same value, or faults of the same wording by operators of the same kind and
text. -/
inductive SameOutcome : Except Failure Value → Except RuntimeError Value → Prop
  | value (v : Value) : SameOutcome (.ok v) (.ok v)
  | fault {f g : RuntimeError} (hm : f.message = g.message) (hk : f.operator.kind = g.operator.kind)
      (hl : f.operator.lexeme = g.operator.lexeme) : SameOutcome (.error (.runtime f)) (.error g)

/-- Outcomes that agree once operators are changed agree. -/
theorem sameOutcome_of_mapOperator {f g : Token → Token} (hf : KeepsText f) (hg : KeepsText g)
    {x y : Except RuntimeError Value}
    (h : x.mapError (RuntimeError.mapOperator f) = y.mapError (RuntimeError.mapOperator g)) :
    SameOutcome (x.mapError .runtime) y := by
  cases x with
  | ok v =>
    cases y with
    | ok w =>
      obtain rfl : v = w := by simpa [Except.mapError] using h
      exact .value v
    | error b => simp [Except.mapError] at h
  | error a =>
    cases y with
    | ok w => simp [Except.mapError] at h
    | error b =>
      obtain ⟨hop, hm⟩ : f a.operator = g b.operator ∧ a.message = b.message := by
        simpa [Except.mapError, RuntimeError.mapOperator] using h
      refine .fault hm ?_ ?_
      · rw [← (hf a.operator).1, hop, (hg b.operator).1]
      · rw [← (hf a.operator).2, hop, (hg b.operator).2]

/-- **Printing preserves meaning**: running the printed form of a tree gives the outcome of the tree or is refused for
nesting alone, and it is not refused if the printed tree is nested at most 128 deep. -/
theorem run_source_sameOutcome {e : Expr} (h : e.Writable) :
    ((∃ error, run e.source = .error (.diagnostics [.syntactic error]) ∧ error.message = "Too much nesting.") ∨
        SameOutcome (run e.source) e.eval) ∧
      (e.printed.nesting ≤ 128 → SameOutcome (run e.source) e.eval) := by
  generalize hb : e.mapOperators .bare = b
  have hsource : e.source = b.source := by rw [← hb, Expr.source_mapOperators keepsText_bare]
  have heval : b.eval = e.eval.mapError (.mapOperator .bare) := by rw [← hb, Expr.eval_mapOperators keepsText_bare]
  have hfits : b.printed.FitsAt 0 0 ↔ e.printed.nesting ≤ 128 := by
    rw [Expr.fitsAt_printed_iff, ← hb, Expr.nesting_printed_mapOperators, maxNesting]
  obtain ⟨hok, hrefused⟩ := compile_source (hb ▸ h.wellFormed_bare)
  -- the tree that is compiled differs from the printed one in the lines of its operators
  have hsame (hle : e.printed.nesting ≤ 128) : SameOutcome (run e.source) e.eval := by
    obtain ⟨e', hcompiled, he'⟩ := hok (hfits.2 hle)
    have hrun : run e.source = e'.eval.mapError .runtime := by rw [run, hsource, hcompiled]; rfl
    have heval' : e'.eval.mapError (RuntimeError.mapOperator .unplaced) =
        e.eval.mapError (RuntimeError.mapOperator (Token.unplaced ∘ Token.bare)) := by
      rw [← Expr.eval_mapOperators keepsText_unplaced, ← Expr.unplaced_eq_mapOperators, he',
        Expr.unplaced_eq_mapOperators, Expr.eval_mapOperators keepsText_unplaced, Expr.eval_printed, heval]
      cases e.eval <;> rfl
    rw [hrun]
    exact sameOutcome_of_mapOperator keepsText_unplaced (keepsText_unplaced.comp keepsText_bare) heval'
  refine ⟨?_, hsame⟩
  by_cases hle : e.printed.nesting ≤ 128
  · exact .inr (hsame hle)
  · obtain ⟨error, herror, hmessage⟩ := hrefused (mt hfits.1 hle)
    refine .inl ⟨error, ?_, hmessage⟩
    rw [run, hsource, herror]
    rfl

/-- The tree of `-0 / ∞`, whose operator token also carries a value. -/
def vanishingQuotient : Expr :=
  .binary (.literal (.number (.signed true .zero))) ⟨.slash, "/", some (.str "/"), 7⟩
    (.literal (.number (.signed false .infinity)))

/-- The tree of a negated not-a-number compared with a string. -/
def comparedText : Expr :=
  .binary (.unary ⟨.minus, "-", none, 2⟩ (.literal (.number .nan))) ⟨.less, "<", none, 3⟩ (.literal (.str "a"))

theorem run_source_vanishingQuotient :
    (vanishingQuotient.Writable ∧ vanishingQuotient.eval = .ok (.number (.signed true .zero)) ∧
        SameOutcome (run vanishingQuotient.source) vanishingQuotient.eval) ∧
      comparedText.Writable ∧ comparedText.eval = .error ⟨⟨.less, "<", none, 3⟩, "Operand must be numbers."⟩ ∧
        SameOutcome (run comparedText.source) comparedText.eval := by
  have hquotient : vanishingQuotient.Writable := ⟨rfl, by decide, trivial, trivial⟩
  have hquote : '"' ∉ "a".toList := by decide
  have htext : comparedText.Writable := ⟨rfl, by decide, ⟨rfl, by decide, trivial⟩, hquote⟩
  exact ⟨⟨hquotient, rfl, (run_source_sameOutcome hquotient).2 (by decide)⟩,
    htext, rfl, (run_source_sameOutcome htext).2 (by decide)⟩

end LoxCalc
