import LoxCalc.Program
import LoxCalc.Proofs.Expr.Carriers
import LoxCalc.Proofs.Expr.EvalOrder

/-!
# LoxCalc.Proofs.Expr.Groupings — groupings never change an outcome

An expression without its groupings has the value it had, or the fault, over any operators and numbers
(`ExprOver.eval_ungrouped`), and so over those of the language (`Expr.eval_ungrouped`).  It has the same operations in
the same order (`operations_ungrouped`).  So two expressions that differ in groupings only go through the same
operations: they end with the same value, or the same operation refuses its operands (`eval_of_ungrouped_eq`).

The numbers of the language have one not-a-number.  That the same one comes out where there are many is said over all
carriers, the bit patterns among them.
-/

namespace LoxCalc

/-- **Taking out the groupings** keeps the value, or the fault. -/
theorem ExprOver.eval_ungrouped {τ ν : Type} (c : Carrier τ ν) (e : ExprOver τ ν) : e.ungrouped.eval c = e.eval c := by
  induction e with
  | literal v => rfl
  | grouping e ih => exact ih
  | unary op e ih => rw [ungrouped, eval, ih, eval]
  | binary l op r ihl ihr => rw [ungrouped, eval, ihl, ihr, eval]

namespace Expr

variable {e e' : Expr}

theorem eval_ungrouped (e : Expr) : e.ungrouped.eval = e.eval := by
  obtain ⟨e, rfl⟩ := ExprOver.exists_read e
  rw [ExprOver.ungrouped_read, ExprOver.eval_read reads_numbers, ExprOver.eval_ungrouped,
    ← ExprOver.eval_read reads_numbers]

/-- **The operations stay** where they are. -/
theorem operations_ungrouped (e : Expr) : e.ungrouped.operations = e.operations.map ungrouped := by
  induction e with
  | literal v => rfl
  | grouping e ih => rw [ungrouped, ih, operations_grouping]
  | unary op e ih =>
    rw [ungrouped, operations_unary, ih, operations_unary, List.map_append, List.map_singleton, ungrouped]
  | binary l op r ihl ihr =>
    rw [ungrouped, operations_binary, ihl, ihr, operations_binary, List.map_append, List.map_append, List.map_singleton,
      ungrouped]

theorem map_eval_operations (e : Expr) : e.operations.map eval = e.ungrouped.operations.map eval := by
  rw [operations_ungrouped, List.map_map]
  exact List.map_congr_left fun u _ => u.eval_ungrouped.symm

/-- Texts that are compiled to expressions with the same outcome run alike. -/
theorem run_eq_run (heval : e.eval = e'.eval) {source source' : String} (h : compile source = .ok e)
    (h' : compile source' = .ok e') : run source = run source' := by
  rw [run, run, h, h']
  exact congrArg (Except.mapError Failure.runtime) heval

/-- **Groupings never change an outcome.**  Expressions over any operators and numbers that are equal without their
groupings, however many there are and wherever they stand, have the same value, to the bit if the numbers are bit
patterns, or the same fault; and over what reads as the tokens and the numbers of the language this is the outcome of
the expressions that are read.  Of expressions of the language the operations correspond as well, in order and each with
its outcome, and texts that are compiled to such expressions run alike. -/
theorem eval_of_ungrouped_eq :
    (∀ (τ ν : Type) (c : Carrier τ ν) (e e' : ExprOver τ ν), e.ungrouped = e'.ungrouped →
      e.eval c = e'.eval c ∧
      ∀ toToken toNumber, c.Reads toToken toNumber →
        (e.read toToken toNumber).eval = readOutcome toToken toNumber (e.eval c) ∧
        (e'.read toToken toNumber).eval = readOutcome toToken toNumber (e.eval c)) ∧
    ∀ e e' : Expr, e.ungrouped = e'.ungrouped →
      e.eval = e'.eval ∧
      e.operations.map ungrouped = e'.operations.map ungrouped ∧ e.operations.map eval = e'.operations.map eval ∧
      ∀ source source' : String, compile source = .ok e → compile source' = .ok e' → run source = run source' := by
  constructor
  · intro τ ν c e e' h
    have heval : e.eval c = e'.eval c := by rw [← e.eval_ungrouped, h, e'.eval_ungrouped]
    refine ⟨heval, fun toToken toNumber hreads => ⟨ExprOver.eval_read hreads e, ?_⟩⟩
    rw [heval]
    exact ExprOver.eval_read hreads e'
  · intro e e' h
    have heval : e.eval = e'.eval := by rw [← e.eval_ungrouped, h, e'.eval_ungrouped]
    refine ⟨heval, ?_, ?_, fun source source' => run_eq_run heval⟩
    · rw [← operations_ungrouped, h, operations_ungrouped]
    · rw [map_eval_operations, h, ← map_eval_operations]

/-- The sum of a negated value and one, with the operands and the whole each as they are or grouped. -/
def sumWith (v : ValueOver UInt64) (inFirst inSecond around : ExprOver Token UInt64 → ExprOver Token UInt64) :
    ExprOver Token UInt64 :=
  around (.binary (.unary ⟨.minus, "-", none, 1⟩ (inFirst (.literal v))) ⟨.plus, "+", none, 1⟩
    (inSecond (.literal (.number 0x3FF0000000000000))))

/-- Bit patterns where an operation on not-a-numbers gives the first of them. -/
def firstNaN : Carrier Token UInt64 :=
  .bits fun _ a b =>
    if (Binary64.ofBits a).isNaN then a else if (Binary64.ofBits b).isNaN then b else 0x7FF8000000000000

theorem reads_firstNaN : firstNaN.Reads id .ofBits := by
  apply reads_bits
  intro kind a b
  have hnan (bits : UInt64) (h : (Binary64.ofBits bits).isNaN = true) : Binary64.ofBits bits = .nan := by
    cases hx : Binary64.ofBits bits with
    | nan => rfl
    | signed negative m => rw [hx] at h; cases h
  split
  · exact hnan a ‹_›
  · split
    · exact hnan b ‹_›
    · rfl

/-- **Stacked groupings** around one operand, or groupings around the other and the whole: the same fault for nil; for a
not-a-number the same one, with its payload and the other sign, which reads as the not-a-number of the language. -/
theorem eval_sumWith :
    compile "-((nil)) + 1" = .ok ((sumWith .nil (.grouping ∘ .grouping) id id).read id .ofBits) ∧
    compile "(-nil + (1))" = .ok ((sumWith .nil id .grouping .grouping).read id .ofBits) ∧
    run "-((nil)) + 1" = run "(-nil + (1))" ∧
    run "-((nil)) + 1" = .error (.runtime ⟨⟨.minus, "-", none, 1⟩, "Operand must be a number."⟩) ∧
    (sumWith (.number 0x7FF8000000000001) (.grouping ∘ .grouping) id id).eval firstNaN =
      (sumWith (.number 0x7FF8000000000001) id .grouping .grouping).eval firstNaN ∧
    (sumWith (.number 0x7FF8000000000001) id .grouping .grouping).eval firstNaN = .ok (.number 0xFFF8000000000001) ∧
    ((sumWith (.number 0x7FF8000000000001) id .grouping .grouping).read id .ofBits).eval = .ok (.number .nan) := by
  have hstacked : compile "-((nil)) + 1" = .ok ((sumWith .nil (.grouping ∘ .grouping) id id).read id .ofBits) := by
    decide +kernel
  have haround : compile "(-nil + (1))" = .ok ((sumWith .nil id .grouping .grouping).read id .ofBits) := by
    decide +kernel
  have hungrouped (v : ValueOver UInt64) : (sumWith v (.grouping ∘ .grouping) id id).ungrouped =
      (sumWith v id .grouping .grouping).ungrouped := rfl
  have hread := congrArg (ExprOver.read id Binary64.ofBits) (hungrouped .nil)
  rw [← ExprOver.ungrouped_read, ← ExprOver.ungrouped_read] at hread
  obtain ⟨hover, hsame⟩ := eval_of_ungrouped_eq
  obtain ⟨heval, hreads⟩ := hover _ _ firstNaN _ _ (hungrouped (.number 0x7FF8000000000001))
  have hvalue : (sumWith (.number 0x7FF8000000000001) id .grouping .grouping).eval firstNaN =
      .ok (.number 0xFFF8000000000001) := rfl
  refine ⟨hstacked, haround, (hsame _ _ hread).2.2.2 _ _ hstacked haround, by decide +kernel, heval, hvalue, ?_⟩
  rw [(hreads id .ofBits reads_firstNaN).2, heval, hvalue]
  rfl

end Expr

end LoxCalc
