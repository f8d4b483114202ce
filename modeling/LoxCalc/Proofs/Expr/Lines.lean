import LoxCalc.Proofs.Expr.Grammar
import LoxCalc.Proofs.Token.Segmentation

/-!
# LoxCalc.Proofs.Expr.Lines — trees apart from the lines of their tokens

`e.unplaced` has every operator token on line `0`.  The grammar and the limits do not look at lines
(`canonical_unplaced`, `fitsAt_unplaced`), and tokens that differ in their lines only spell trees that differ in them
only (`Expr.Spells.exists_of_content`).
-/

namespace LoxCalc

namespace Token

/-- The token on line `0`. -/
def unplaced (t : Token) : Token := { t with line := 0 }

@[simp] theorem kind_unplaced (t : Token) : t.unplaced.kind = t.kind := rfl

theorem unplaced_eq_iff {s t : Token} : s.unplaced = t.unplaced ↔ s.content = t.content := by
  simp [unplaced, content]

theorem value?_eq_of_content {s t : Token} (h : s.content = t.content) : s.value? = t.value? := by
  obtain ⟨hk, -, hl⟩ : s.kind = t.kind ∧ s.lexeme = t.lexeme ∧ s.literal = t.literal := by simpa [content] using h
  rw [value?, value?, hk, hl]

end Token

namespace Expr

/-- The tree with all of its operator tokens on line `0`. -/
def unplaced : Expr → Expr
  | literal v => literal v
  | grouping e => grouping e.unplaced
  | unary op e => unary op.unplaced e.unplaced
  | binary l op r => binary l.unplaced op.unplaced r.unplaced

/-! ## Neither the grammar nor the limits look at lines -/

@[simp] theorem rank_unplaced (e : Expr) : e.unplaced.rank = e.rank := by
  cases e <;> rfl

theorem canonical_unplaced (e : Expr) : e.unplaced.Canonical ↔ e.Canonical := by
  induction e with
  | literal v => rfl
  | grouping e ih => exact ih
  | unary op e ih => simp [unplaced, Canonical, ih]
  | binary l op r ihl ihr => simp [unplaced, Canonical, ihl, ihr]

@[simp] theorem chainLength_unplaced (e : Expr) : e.unplaced.chainLength = e.chainLength := by
  induction e with
  | literal v => rfl
  | grouping e _ => rfl
  | unary op e _ => rfl
  | binary l op r ihl _ => simp only [unplaced, chainLength, rank_unplaced, Token.kind_unplaced, ihl]

theorem fitsAt_unplaced (e : Expr) (d h : Nat) : e.unplaced.FitsAt d h ↔ e.FitsAt d h := by
  induction e generalizing d h with
  | literal v => rfl
  | grouping e ih => simp only [unplaced, FitsAt, ih]
  | unary op e ih => simp only [unplaced, FitsAt, ih]
  | binary l op r ihl ihr =>
    have hchain : (binary l.unplaced op.unplaced r.unplaced).chainLength = (binary l op r).chainLength :=
      chainLength_unplaced (binary l op r)
    simp only [unplaced, FitsAt, hchain, ihl, ihr]

theorem ungrouped_unplaced (e : Expr) : e.unplaced.ungrouped = e.ungrouped.unplaced := by
  induction e with
  | literal v => rfl
  | grouping e ih => exact ih
  | unary op e ih => simp only [unplaced, ungrouped, ih]
  | binary l op r ihl ihr => simp only [unplaced, ungrouped, ihl, ihr]

section Unplaced

variable {e e' : Expr} (h : e'.unplaced = e.unplaced)
include h

theorem canonical_iff_of_unplaced : e'.Canonical ↔ e.Canonical := by
  rw [← canonical_unplaced, h, canonical_unplaced]

theorem fitsAt_iff_of_unplaced (d k : Nat) : e'.FitsAt d k ↔ e.FitsAt d k := by
  rw [← fitsAt_unplaced, h, fitsAt_unplaced]

theorem ungrouped_unplaced_eq : e'.ungrouped.unplaced = e.ungrouped.unplaced := by
  rw [← ungrouped_unplaced, h, ungrouped_unplaced]

end Unplaced

/-! ## Tokens on other lines -/

/-- **Tokens on other lines** spell the same tree with its operators on other lines. -/
theorem Spells.exists_of_content {e : Expr} {p q : List Token} (h : e.Spells p)
    (hq : q.map Token.content = p.map Token.content) : ∃ e' : Expr, e'.Spells q ∧ e'.unplaced = e.unplaced := by
  induction h generalizing q with
  | @literal t v hv =>
    obtain ⟨s, rfl, hs⟩ := List.map_eq_singleton_iff.1 hq
    exact ⟨_, .literal ((Token.value?_eq_of_content hs).trans hv), rfl⟩
  | @grouping e p left right hl hr _ ih =>
    rw [List.map_cons, List.map_append, List.map_singleton] at hq
    obtain ⟨left', after, rfl, hleft, hafter⟩ := List.map_eq_cons_iff.1 hq
    obtain ⟨inner, last, rfl, hinner, hlast⟩ := List.map_eq_append_iff.1 hafter
    obtain ⟨right', rfl, hright⟩ := List.map_eq_singleton_iff.1 hlast
    obtain ⟨e', hs, he⟩ := ih hinner
    have hl' : left'.kind = .leftParen := (congrArg Prod.fst hleft).trans hl
    have hr' : right'.kind = .rightParen := (congrArg Prod.fst hright).trans hr
    exact ⟨_, .grouping hl' hr' hs, congrArg Expr.grouping he⟩
  | @unary op e p _ ih =>
    obtain ⟨op', after, rfl, hop, hafter⟩ := List.map_eq_cons_iff.1 hq
    obtain ⟨e', hs, he⟩ := ih hafter
    refine ⟨_, .unary hs, ?_⟩
    rw [unplaced, unplaced, he, Token.unplaced_eq_iff.2 hop]
  | @binary l r op p p' _ _ ihl ihr =>
    rw [List.map_append, List.map_cons] at hq
    obtain ⟨front, after, rfl, hfront, hafter⟩ := List.map_eq_append_iff.1 hq
    obtain ⟨op', back, rfl, hop, hback⟩ := List.map_eq_cons_iff.1 hafter
    obtain ⟨l', hsl, hl⟩ := ihl hfront
    obtain ⟨r', hsr, hr⟩ := ihr hback
    refine ⟨_, .binary hsl hsr, ?_⟩
    rw [unplaced, unplaced, hl, hr, Token.unplaced_eq_iff.2 hop]

end Expr

end LoxCalc
