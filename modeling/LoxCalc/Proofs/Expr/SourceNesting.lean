import LoxCalc.Proofs.Expr.Height
import LoxCalc.Proofs.Expr.RoundTrip

/-!
# LoxCalc.Proofs.Expr.SourceNesting — when a printed tree keeps the limits

In a printed tree every operand with operators of its own stands in a grouping.  So a level has one operator only, and
between two binary operators on a path there is a grouping or a prefix operator: the height that is counted is at most
twice the nesting and one more (`countedHeight_printed_le`).  That is far below the limit of height for every tree that
keeps the limit of nesting, which alone decides (`fitsAt_printed_iff`).

`Expr.sourceNesting` counts the nesting on the tree that is printed; for trees whose numbers are numerals it is the
nesting of the printed tree (`nesting_printed`).
-/

namespace LoxCalc

namespace Expr

/-! ## The nesting of the printed form -/

/-- The prefix operators and parentheses inside one another in the printed form of a tree: those of the tree, and a
pair of parentheses around every operand with operators of its own. -/
def sourceNesting : Expr → Nat
  | literal _ => 0
  | grouping e => 1 + e.sourceNesting
  | unary _ e => 1 + e.isCompound.toNat + e.sourceNesting
  | binary l _ r => max (l.isCompound.toNat + l.sourceNesting) (r.isCompound.toNat + r.sourceNesting)

theorem nesting_enclosed (b : Bool) (e : Expr) : (enclosed b e).nesting = b.toNat + e.nesting := by
  cases b
  · exact (Nat.zero_add _).symm
  · exact Nat.add_comm _ _

theorem nesting_printed {e : Expr} (h : e.NumbersIn fun x => ∃ m, x = .signed false m ∧ m.isInfinite = false) :
    e.printed.nesting = e.sourceNesting := by
  induction e with
  | literal v =>
    cases v with
    | number x =>
      obtain ⟨m, rfl, hm⟩ := h
      simp [printed, Value.printed, Binary64.printed, hm, nesting, sourceNesting]
    | _ => rfl
  | grouping e ih =>
    rw [printed, nesting, ih h, sourceNesting, Nat.add_comm]
  | unary op e ih =>
    rw [printed, nesting, nesting_enclosed, ih h, sourceNesting]
    omega
  | binary l op r ihl ihr =>
    rw [printed, nesting, nesting_enclosed, nesting_enclosed, ihl h.1, ihr h.2, sourceNesting]

/-! ## The counted height of the printed form -/

theorem countedHeight_enclosed (b : Bool) (e : Expr) :
    (enclosed b e).countedHeight = b.toNat + e.countedHeight := by
  cases b
  · exact (Nat.zero_add _).symm
  · exact Nat.add_comm _ _

/-- No operand of a printed tree continues the level of its operator. -/
theorem chainLength_binary_enclosed (l : Expr) (op : Token) (r : Expr) :
    (binary (enclosed l.isCompound l.printed) op r).chainLength = 1 := by
  have hlevel : op.kind.binaryRank?.getD 0 < 5 := by
    cases hm : op.kind.binaryRank? with
    | none => exact Nat.zero_lt_succ 4
    | some m => exact Nat.lt_succ_of_lt (TokenKind.binaryRank?_lt hm)
  rw [chainLength, enclosed_rank, if_neg (Nat.ne_of_gt hlevel)]

theorem countedHeight_printed_number (x : Binary64) : x.printed.countedHeight ≤ 2 * x.printed.nesting := by
  have hrank : Token.slashSign.kind.binaryRank?.getD 0 = 3 := rfl
  rcases x with _ | ⟨negative, m⟩
  · simp [Binary64.printed, digit, countedHeight, nesting, chainLength, rank, hrank]
  · rw [Binary64.printed]
    repeat' split
    all_goals simp [digit, countedHeight, nesting, chainLength, rank, hrank]

/-- **The counted height of a printed tree**: a grouping or prefix operator for every binary operator, the one of the
tree itself apart. -/
theorem countedHeight_printed_le (e : Expr) :
    e.printed.countedHeight ≤ 2 * e.printed.nesting + e.isCompound.toNat := by
  -- an operand in its grouping has no operator of its own left over
  have hoperand {e : Expr} (ih : e.printed.countedHeight ≤ 2 * e.printed.nesting + e.isCompound.toNat) :
      (enclosed e.isCompound e.printed).countedHeight ≤ 2 * (enclosed e.isCompound e.printed).nesting := by
    rw [countedHeight_enclosed, nesting_enclosed]
    omega
  induction e with
  | literal v =>
    cases v with
    | number x => exact countedHeight_printed_number x
    | _ => exact Nat.zero_le _
  | grouping e ih =>
    have hbool := Bool.toNat_le e.isCompound
    rw [printed, countedHeight, nesting]
    omega
  | unary op e ih =>
    have hcompound : (unary op e).isCompound.toNat = 1 := rfl
    have := hoperand ih
    rw [printed, countedHeight, nesting, hcompound]
    omega
  | binary l op r ihl ihr =>
    have hcompound : (binary l op r).isCompound.toNat = 1 := rfl
    have hl := hoperand ihl
    have hr := hoperand ihr
    rw [printed, countedHeight, nesting, chainLength_binary_enclosed, hcompound]
    omega

/-- **The limit of nesting decides** whether a printed tree keeps the limits. -/
theorem fitsAt_printed_iff (e : Expr) : e.printed.FitsAt 0 0 ↔ e.printed.nesting ≤ maxNesting := by
  have hheight := countedHeight_printed_le e
  have hbool := Bool.toNat_le e.isCompound
  rw [fitsAt_iff e.printed (Nat.zero_le _) (Nat.zero_le _)]
  simp only [maxNesting, maxHeight, Nat.zero_add]
  omega

end Expr

/-! ## Reading the printed form -/

theorem Expr.WellFormed.scan_source {e : Expr} (h : e.WellFormed) : (scan e.source).errors = [] := by
  obtain ⟨p, -, hw⟩ := h.writtenAs_source
  obtain ⟨q, ending, -, -, -, herrors⟩ := scan_of_writes hw
  exact herrors

/-- **Which trees can be read back**: the printed form of a tree with fixed operator texts, strings without quotes and
finite numbers without signs has no lexical error, and it is compiled to the tree, groupings and lines apart, if its
nesting is at most 128, and refused for nesting alone if it is more. -/
theorem compile_source_iff_sourceNesting {e : Expr} (h : e.WellFormed)
    (hn : e.NumbersIn fun x => ∃ m, x = .signed false m ∧ m.isInfinite = false) :
    (scan e.source).errors = [] ∧
      (e.sourceNesting ≤ 128 →
        ∃ e', compile e.source = .ok e' ∧ e'.ungrouped.unplaced = e.ungrouped.unplaced) ∧
      (128 < e.sourceNesting → RefusedForNesting (compile e.source)) := by
  have hfits : e.printed.FitsAt 0 0 ↔ e.sourceNesting ≤ 128 := by
    rw [Expr.fitsAt_printed_iff, Expr.nesting_printed hn, maxNesting]
  refine ⟨h.scan_source, ?_, ?_⟩
  · intro hle
    obtain ⟨e', hok, he'⟩ := (compile_source h).1 (hfits.2 hle)
    refine ⟨e', hok, ?_⟩
    have hfinite : e.NumbersIn fun x => (∃ m, x = .signed false m) ∧ x.isFinite = true :=
      hn.imp fun x hx => by
        obtain ⟨m, rfl, hm⟩ := hx
        exact ⟨⟨m, rfl⟩, by simp [Binary64.isFinite, hm]⟩
    rw [Expr.ungrouped_unplaced_eq he', Expr.ungrouped_printed hfinite]
  · intro hlt
    exact (compile_source h).2 (mt hfits.1 (Nat.not_le.2 hlt))

/-! ### At the limit -/

namespace Expr

/-- The number one behind minus signs; printed, all of them but the last are followed by a parenthesis. -/
def negations : Nat → Expr
  | 0 => digit '1'
  | n + 1 => unary .minusSign (negations n)

theorem wellFormed_negations : ∀ n : Nat, (negations n).WellFormed
  | 0 => trivial
  | n + 1 => ⟨rfl, isFixed_minusSign, wellFormed_negations n⟩

theorem numbersIn_negations {P : Binary64 → Prop} (h : P (.ofNumeral ['1'] [])) :
    ∀ n : Nat, (negations n).NumbersIn P
  | 0 => h
  | n + 1 => numbersIn_negations h n

end Expr

open LoxCalc.Expr in
theorem compile_source_negations :
    ((negations 64).sourceNesting = 127 ∧ ∃ e', compile (negations 64).source = .ok e' ∧
        e'.ungrouped.unplaced = (negations 64).ungrouped.unplaced) ∧
      (negations 65).sourceNesting = 129 ∧ RefusedForNesting (compile (negations 65).source) := by
  have hone : ∃ m, Binary64.ofNumeral ['1'] [] = .signed false m ∧ m.isInfinite = false :=
    ⟨_, rfl, by decide +kernel⟩
  have h64 := compile_source_iff_sourceNesting (wellFormed_negations 64) (numbersIn_negations hone 64)
  have h65 := compile_source_iff_sourceNesting (wellFormed_negations 65) (numbersIn_negations hone 65)
  exact ⟨⟨rfl, h64.2.1 (by decide)⟩, rfl, h65.2.2 (by decide)⟩

end LoxCalc
