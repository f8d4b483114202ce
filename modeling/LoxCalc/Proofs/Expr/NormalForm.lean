import LoxCalc.Proofs.Expr.Meaning

/-!
# LoxCalc.Proofs.Expr.NormalForm — the printed form of a text is a normal form

The tree that the printed form of a text is compiled to is not the tree of the text: operands with operators of their
own are grouped in it, and a numeral too large for a finite number has become a quotient.  But it is printed in the same
way (`Expr.source_printed`), since the parentheses that the printer adds are those that it finds as groupings the
second time.  So the text does not change any more from the first round of printing and compiling on, and running it
gives the outcome of the text at the start (`reprint_normalForm`).
-/

namespace LoxCalc

namespace Expr

/-! ## Printing a printed tree -/

theorem source_digit_zero : (digit '0').source = "0" := by decide +kernel

theorem source_digit_one : (digit '1').source = "1" := by decide +kernel

/-- A number without a sign is printed in the same way again, as a numeral or as a quotient. -/
theorem source_printed_number (m : Magnitude) :
    (Binary64.signed false m).printed.source = (Binary64.signed false m).source := by
  by_cases hm : m.isInfinite = true
  · have hquotient : (binary (digit '1') .slashSign (digit '0')).source = "1 / 0" := by
      rw [source, source_digit_zero, source_digit_one]
      rfl
    rw [Binary64.printed, if_pos hm, if_neg Bool.false_ne_true, source, hquotient, Binary64.source, if_pos hm,
      if_neg Bool.false_ne_true]
    rfl
  · rw [Binary64.printed, if_neg hm, if_neg Bool.false_ne_true]
    rfl

theorem isCompound_printed {e : Expr} (h : e.isCompound = false) : e.printed.isCompound = false := by
  cases e with
  | literal v =>
    cases v with
    | number x =>
      rcases x with _ | ⟨negative, m⟩
      · rfl
      · rw [printed, Value.printed, Binary64.printed]
        repeat' split
        all_goals rfl
    | _ => rfl
  | grouping e => rfl
  | unary op e => simp [isCompound] at h
  | binary l op r => simp [isCompound] at h

/-- The grouping of an operand is printed as the parentheses that the operand is printed with. -/
theorem source_enclosed {e : Expr} (h : e.printed.source = e.source) :
    parenthesised (enclosed e.isCompound e.printed).isCompound (enclosed e.isCompound e.printed).source =
      parenthesised e.isCompound e.source := by
  cases hc : e.isCompound with
  | true =>
    rw [enclosed, if_pos rfl, source, h]
    rfl
  | false =>
    rw [enclosed, if_neg Bool.false_ne_true, isCompound_printed hc, h]

/-- **The printed tree is printed as the tree**, if the numbers of the tree have no signs. -/
theorem source_printed {e : Expr} (h : e.NumbersIn fun x => ∃ m, x = .signed false m) :
    e.printed.source = e.source := by
  induction e with
  | literal v =>
    cases v with
    | number x =>
      obtain ⟨m, rfl⟩ := h
      exact source_printed_number m
    | _ => rfl
  | grouping e ih => rw [printed, source, ih h, source]
  | unary op e ih => rw [printed, source, source_enclosed (ih h), source]
  | binary l op r ihl ihr => rw [printed, source, source_enclosed (ihl h.1), source_enclosed (ihr h.2), source]

/-! ## Trees that differ in lines -/

section Unplaced

variable {e e' : Expr} (h : e'.unplaced = e.unplaced)
include h

theorem source_eq_of_unplaced : e'.source = e.source := by
  rw [← source_mapOperators keepsText_unplaced e', ← unplaced_eq_mapOperators, h, unplaced_eq_mapOperators,
    source_mapOperators keepsText_unplaced]

theorem eval_eq_of_unplaced :
    e'.eval.mapError (RuntimeError.mapOperator .unplaced) = e.eval.mapError (RuntimeError.mapOperator .unplaced) := by
  rw [← eval_mapOperators keepsText_unplaced e', ← unplaced_eq_mapOperators, h, unplaced_eq_mapOperators,
    eval_mapOperators keepsText_unplaced]

end Unplaced

end Expr

/-! ## Rounds of printing and compiling -/

/-- The text after a number of rounds; in each the text is compiled and the tree is printed. -/
def reprint : Nat → String → Except Failure String
  | 0, source => .ok source
  | n + 1, source => (compile source).bind fun e => reprint n e.source

/-- Two runs give the same value, or faults of the same wording by operators of the same kind and text. -/
inductive SameRun : Except Failure Value → Except Failure Value → Prop
  | value (v : Value) : SameRun (.ok v) (.ok v)
  | fault {f g : RuntimeError} (hm : f.message = g.message) (hk : f.operator.kind = g.operator.kind)
      (hl : f.operator.lexeme = g.operator.lexeme) : SameRun (.error (.runtime f)) (.error (.runtime g))

theorem SameOutcome.sameRun {x : Except Failure Value} {y : Except RuntimeError Value} (h : SameOutcome x y) :
    SameRun (y.mapError .runtime) x := by
  cases h with
  | value v => exact .value v
  | fault hm hk hl => exact .fault hm.symm hk.symm hl.symm

theorem run_of_compile {source : String} {e : Expr} (h : compile source = .ok e) :
    run source = e.eval.mapError .runtime := by
  rw [run, h]
  rfl

section Rounds

variable {source : String} {e : Expr} (h : compile source = .ok e)
include h

/-- The printed form of a text is compiled to the printed tree, lines apart, if this keeps the limit of nesting, and
refused if not. -/
theorem compile_printed_cases :
    (e.printed.nesting ≤ maxNesting ∧ ∃ e₁, compile e.source = .ok e₁ ∧ e₁.unplaced = e.printed.unplaced) ∨
      (¬ e.printed.nesting ≤ maxNesting ∧ RefusedForNesting (compile e.source)) := by
  obtain ⟨hok, hrefused⟩ := compile_source (wellFormed_of_compile h).1
  rw [Expr.fitsAt_printed_iff] at hok hrefused
  by_cases hn : e.printed.nesting ≤ maxNesting
  · exact .inl ⟨hn, hok hn⟩
  · exact .inr ⟨hn, hrefused hn⟩

theorem unplaced_of_compile_printed {e₁ : Expr} (h₁ : compile e.source = .ok e₁) :
    e₁.unplaced = e.printed.unplaced := by
  rcases compile_printed_cases h with ⟨-, e', h', he'⟩ | ⟨-, hrefused⟩
  · rw [h₁] at h'
    cases h'
    exact he'
  · rw [h₁] at hrefused
    exact absurd hrefused (not_refusedForNesting_ok e₁)

theorem source_of_compile_printed {e₁ : Expr} (h₁ : compile e.source = .ok e₁) : e₁.source = e.source := by
  rw [Expr.source_eq_of_unplaced (unplaced_of_compile_printed h h₁), Expr.source_printed (wellFormed_of_compile h).2]

theorem sameRun_of_compile_printed {e₁ : Expr} (h₁ : compile e.source = .ok e₁) :
    SameRun (run source) (run e.source) := by
  have heval := Expr.eval_eq_of_unplaced (unplaced_of_compile_printed h h₁)
  rw [Expr.eval_printed] at heval
  rw [run_of_compile h, run_of_compile h₁]
  exact (sameOutcome_of_mapOperator keepsText_unplaced keepsText_unplaced heval).sameRun

theorem reprint_of_compile_printed {e₁ : Expr} (h₁ : compile e.source = .ok e₁) :
    ∀ n : Nat, reprint n e.source = .ok e.source
  | 0 => rfl
  | n + 1 => by
    rw [reprint, h₁, Except.bind, source_of_compile_printed h h₁]
    exact reprint_of_compile_printed h₁ n

/-- **The printed form is a normal form**, reached in one round: where it is compiled at all, each further round
succeeds and leaves it as it is, and running it gives the outcome of the text at the start; otherwise it is refused for
nesting alone.  It is compiled iff the printed tree keeps the limit of nesting. -/
theorem reprint_normalForm :
    (∀ e₁, compile e.source = .ok e₁ → e₁.source = e.source ∧
        (∀ n : Nat, reprint (n + 1) source = .ok e.source) ∧ SameRun (run source) (run e.source)) ∧
      (∀ f, compile e.source = .error f → RefusedForNesting (compile e.source)) ∧
      ((∃ e₁, compile e.source = .ok e₁) ↔ e.printed.nesting ≤ 128) := by
  refine ⟨?_, ?_, ?_⟩
  · intro e₁ h₁
    refine ⟨source_of_compile_printed h h₁, ?_, sameRun_of_compile_printed h h₁⟩
    intro n
    rw [reprint, h, Except.bind]
    exact reprint_of_compile_printed h h₁ n
  · intro f hf
    rcases compile_printed_cases h with ⟨-, e₁, h₁, -⟩ | ⟨-, hrefused⟩
    · rw [hf] at h₁
      cases h₁
    · exact hrefused
  · rcases compile_printed_cases h with ⟨hn, e₁, h₁, -⟩ | ⟨hn, hrefused⟩
    · exact iff_of_true ⟨e₁, h₁⟩ hn
    · refine iff_of_false ?_ hn
      rintro ⟨e₁, h₁⟩
      rw [h₁] at hrefused
      exact not_refusedForNesting_ok e₁ hrefused

end Rounds

/-- The tree of `8 - 4 - !nil`, whose second difference faults. -/
def faultyDifference : Expr :=
  .binary (.binary (.digit '8') ⟨.minus, "-", none, 1⟩ (.digit '4')) ⟨.minus, "-", none, 1⟩
    (.unary ⟨.bang, "!", none, 1⟩ (.literal .nil))

theorem reprint_faultyDifference :
    (compile "8 - 4 - !nil" = .ok faultyDifference ∧
        (∀ n : Nat, reprint (n + 1) "8 - 4 - !nil" = .ok "(8 - 4) - (!nil)") ∧
        SameRun (run "8 - 4 - !nil") (run "(8 - 4) - (!nil)")) ∧
      compile (String.ofList (tenToThe 1024)) = .ok (.literal (.number (.signed false .infinity))) ∧
        ∀ n : Nat, reprint (n + 1) (String.ofList (tenToThe 1024)) = .ok "(1 / 0)" := by
  have hok : compile "8 - 4 - !nil" = .ok faultyDifference := by decide +kernel
  have hsource : faultyDifference.source = "(8 - 4) - (!nil)" := by decide +kernel
  have hlarge := compile_tenToThe (Nat.le_refl 1024)
  obtain ⟨hform, -, hiff⟩ := reprint_normalForm hok
  obtain ⟨hform', -, hiff'⟩ := reprint_normalForm hlarge
  obtain ⟨e₁, h₁⟩ := hiff.2 (by decide +kernel)
  obtain ⟨e₂, h₂⟩ := hiff'.2 (by decide)
  rw [hsource] at hform h₁
  exact ⟨⟨hok, (hform e₁ h₁).2⟩, hlarge, (hform' e₂ h₂).2.1⟩

end LoxCalc
