import LoxCalc.Expr.Parser
import Mathlib.Data.List.Induction
import Mathlib.Tactic.Tauto

/-!
# LoxCalc.Proofs.Expr.Grammar — which tokens spell which tree, and which trees fit the limits

* `Expr.Spells e p`: read from left to right, `e` has exactly the tokens `p`.
* `Expr.Canonical e`: the tree respects precedence and folds to the left, so that no grouping is missing in it.
* `Expr.FitsAt d h e`: below `d` prefix operators and parentheses, and in a place that counts as `h` nodes high, `e`
  keeps the limits.  On one level of binary operators `a₀ op₁ a₁ … opₖ aₖ` the operand `aᵢ` counts `i` nodes: those
  of the operators before it, not of the operators that are folded above it (`fitsAt_fold`).
-/

namespace LoxCalc

/-! ## Ranks -/

/-- The level of a binary operator, from the loosest to the tightest. -/
def TokenKind.binaryRank? : TokenKind → Option Nat
  | .bangEqual | .equalEqual => some 0
  | .greater | .greaterEqual | .less | .lessEqual => some 1
  | .minus | .plus => some 2
  | .slash | .star => some 3
  | _ => none

def TokenKind.isBinaryOperator (k : TokenKind) : Bool := k.binaryRank?.isSome

/-- The value a literal token stands for. -/
def Token.value? (t : Token) : Option Value :=
  match t.kind with
  | .kwFalse => some (.bool false)
  | .kwTrue => some (.bool true)
  | .kwNil => some .nil
  | .number | .string => t.literal.map Reader.literalOf
  | _ => none

namespace TokenKind

theorem isEquality_iff {k : TokenKind} : k.isEquality = true ↔ k.binaryRank? = some 0 := by
  cases k <;> decide

theorem isComparison_iff {k : TokenKind} : k.isComparison = true ↔ k.binaryRank? = some 1 := by
  cases k <;> decide

theorem isTerm_iff {k : TokenKind} : k.isTerm = true ↔ k.binaryRank? = some 2 := by
  cases k <;> decide

theorem isFactor_iff {k : TokenKind} : k.isFactor = true ↔ k.binaryRank? = some 3 := by
  cases k <;> decide

theorem binaryRank?_lt {k : TokenKind} {m : Nat} (h : k.binaryRank? = some m) : m < 4 := by
  revert h
  cases k <;> simp [binaryRank?] <;> omega

end TokenKind

namespace Expr

/-- How tightly the outermost node of a tree binds: its level, `4` for a prefix operator, `5` for an operand that
stands by itself. -/
def rank : Expr → Nat
  | literal _ => 5
  | grouping _ => 5
  | unary .. => 4
  | binary _ op _ => op.kind.binaryRank?.getD 0

/-! ## Trees and their tokens -/

/-- The tree has these tokens, in this order. -/
inductive Spells : Expr → List Token → Prop
  | literal {t : Token} {v : Value} (h : t.value? = some v) : Spells (literal v) [t]
  | grouping {e : Expr} {p : List Token} {left right : Token} (hl : left.kind = .leftParen)
      (hr : right.kind = .rightParen) (h : Spells e p) : Spells (grouping e) (left :: (p ++ [right]))
  | unary {op : Token} {e : Expr} {p : List Token} (h : Spells e p) : Spells (unary op e) (op :: p)
  | binary {l r : Expr} {op : Token} {p q : List Token} (hl : Spells l p) (hr : Spells r q) :
      Spells (binary l op r) (p ++ op :: q)

/-- Every right operand binds tighter than its operator, every left operand at least as tight, and the operand of a
prefix operator is no binary operator. -/
def Canonical : Expr → Prop
  | literal _ => True
  | grouping e => e.Canonical
  | unary op e => op.kind.isPrefixOperator = true ∧ 4 ≤ e.rank ∧ e.Canonical
  | binary l op r => ∃ m, op.kind.binaryRank? = some m ∧ m ≤ l.rank ∧ m < r.rank ∧ l.Canonical ∧ r.Canonical

theorem Spells.kind_ne_eof {e : Expr} {p : List Token} (h : e.Spells p) (hc : e.Canonical) :
    ∀ t ∈ p, t.kind ≠ .eof := by
  induction h with
  | @literal t v hv =>
    rintro _ ht heof
    obtain rfl := List.mem_singleton.1 ht
    simp [Token.value?, heof] at hv
  | grouping hl hr _ ih =>
    intro t ht
    simp only [List.mem_cons, List.mem_append, List.not_mem_nil, or_false] at ht
    rcases ht with rfl | ht | rfl
    · simp [hl]
    · exact ih hc t ht
    · simp [hr]
  | unary _ ih =>
    intro t ht
    rcases List.mem_cons.1 ht with rfl | ht
    · intro heof
      simp [Canonical, heof, TokenKind.isPrefixOperator] at hc
    · exact ih hc.2.2 t ht
  | binary _ _ ihl ihr =>
    obtain ⟨m, hm, -, -, hcl, hcr⟩ := hc
    intro t ht
    rcases List.mem_append.1 ht with ht | ht
    · exact ihl hcl t ht
    · rcases List.mem_cons.1 ht with rfl | ht
      · intro heof
        simp [heof, TokenKind.binaryRank?] at hm
      · exact ihr hcr t ht

/-- A tree of at least the given rank and its tokens. -/
structure Phrase (m : Nat) (e : Expr) (p : List Token) : Prop where
  rank_le : m ≤ e.rank
  canonical : e.Canonical
  spells : e.Spells p

section Phrase

variable {m k : Nat} {e l r : Expr} {p q : List Token} {op : Token}

theorem Phrase.unary (h : Phrase 4 e p) (hop : op.kind.isPrefixOperator = true) (hm : m ≤ 4) :
    Phrase m (unary op e) (op :: p) :=
  ⟨hm, ⟨hop, h.rank_le, h.canonical⟩, .unary h.spells⟩

theorem Phrase.grouping {left right : Token} (h : Phrase 0 e p) (hl : left.kind = .leftParen)
    (hr : right.kind = .rightParen) (hm : m ≤ 4) : Phrase m (grouping e) (left :: (p ++ [right])) :=
  ⟨Nat.le_succ_of_le hm, h.canonical, .grouping hl hr h.spells⟩

theorem Phrase.binary (hl : Phrase k l p) (hop : op.kind.binaryRank? = some k) (hr : Phrase (k + 1) r q)
    (hm : m ≤ k) : Phrase m (binary l op r) (p ++ op :: q) := by
  refine ⟨?_, ⟨k, hop, hl.rank_le, hr.rank_le, hl.canonical, hr.canonical⟩, .binary hl.spells hr.spells⟩
  rw [rank, hop]
  exact hm

end Phrase

/-! ## Limits -/

/-- How many operators of its own level stand on the left spine of a tree: the `k` of `a₀ op₁ a₁ … opₖ aₖ`. -/
def chainLength : Expr → Nat
  | binary l op _ => (if l.rank = op.kind.binaryRank?.getD 0 then l.chainLength else 0) + 1
  | _ => 0

/-- The tree keeps both limits below `d` prefix operators and parentheses, at height `h`. -/
def FitsAt (d h : Nat) : Expr → Prop
  | literal _ => True
  | grouping e => d < maxNesting ∧ h < maxHeight ∧ e.FitsAt (d + 1) (h + 1)
  | unary _ e => d < maxNesting ∧ h < maxHeight ∧ e.FitsAt (d + 1) (h + 1)
  | binary l op r =>
    h + (binary l op r).chainLength ≤ maxHeight ∧ l.FitsAt d h ∧ r.FitsAt d (h + (binary l op r).chainLength)

/-! ## Chains -/

/-- The operators of a level with their right operands, folded to the left onto a tree. -/
def fold (a : Expr) (ops : List (Token × Expr)) : Expr := ops.foldl (fun l o => binary l o.1 o.2) a

/-- Operators of level `m` with right operands that bind tighter, and their tokens. -/
inductive Tail (m : Nat) : List (Token × Expr) → List Token → Prop
  | nil : Tail m [] []
  | cons {op : Token} {r : Expr} {p : List Token} {ops : List (Token × Expr)} {q : List Token}
      (hop : op.kind.binaryRank? = some m) (hr : Phrase (m + 1) r p) (h : Tail m ops q) :
      Tail m ((op, r) :: ops) (op :: (p ++ q))

/-- The operators of a level and their right operands fit after an operand at height `h`. -/
def TailFits (d : Nat) : (h : Nat) → List (Token × Expr) → Prop
  | _, [] => True
  | h, o :: ops => h < maxHeight ∧ o.2.FitsAt d (h + 1) ∧ TailFits d (h + 1) ops

@[simp] theorem fold_nil (a : Expr) : a.fold [] = a := rfl

@[simp] theorem fold_cons (a : Expr) (o : Token × Expr) (ops : List (Token × Expr)) :
    a.fold (o :: ops) = (binary a o.1 o.2).fold ops := rfl

@[simp] theorem fold_concat (a : Expr) (ops : List (Token × Expr)) (o : Token × Expr) :
    a.fold (ops ++ [o]) = binary (a.fold ops) o.1 o.2 := by
  simp [fold, List.foldl_append]

theorem tailFits_concat (d : Nat) (o : Token × Expr) : ∀ (ops : List (Token × Expr)) (h : Nat),
    TailFits d h (ops ++ [o]) ↔
      TailFits d h ops ∧ h + ops.length < maxHeight ∧ o.2.FitsAt d (h + ops.length + 1)
  | [], h => by simp [TailFits]
  | x :: ops, h => by
    simp only [List.cons_append, TailFits, tailFits_concat d o ops, List.length_cons]
    rw [show h + 1 + ops.length = h + (ops.length + 1) by omega]
    tauto

section Chain

variable {m : Nat} {a : Expr} {ops : List (Token × Expr)} {q : List Token}

theorem Tail.concat {op : Token} {r : Expr} {p : List Token} (h : Tail m ops q)
    (hop : op.kind.binaryRank? = some m) (hr : Phrase (m + 1) r p) :
    Tail m (ops ++ [(op, r)]) (q ++ op :: p) := by
  induction h with
  | nil => simpa using Tail.cons hop hr .nil
  | cons hop' hr' _ ih => simpa using Tail.cons hop' hr' ih

theorem Tail.rank_eq (h : Tail m ops q) : ∀ o ∈ ops, o.1.kind.binaryRank? = some m := by
  induction h with
  | nil => simp
  | cons hop _ _ ih => simpa using ⟨hop, fun a b hab => ih (a, b) hab⟩

/-- A tree that binds tighter than a level, with a chain of the level folded onto it, is a phrase of the level. -/
theorem Tail.phrase_fold {p : List Token} (ha : Phrase m a p) (h : Tail m ops q) :
    Phrase m (a.fold ops) (p ++ q) := by
  induction h generalizing a p with
  | nil => simpa using ha
  | @cons op r pr ops q hop hr _ ih =>
    have hb : Phrase m (binary a op r) (p ++ op :: pr) := ha.binary hop hr (Nat.le_refl m)
    simpa using ih hb

/-- **Every phrase of a level is one chain**, folded onto a tree that binds tighter. -/
theorem Phrase.exists_fold (hm : m < 4) {e : Expr} {s : List Token} (h : Phrase m e s) :
    ∃ a ops p q, e = a.fold ops ∧ s = p ++ q ∧ Phrase (m + 1) a p ∧ Tail m ops q := by
  induction e generalizing s with
  | literal v => exact ⟨_, [], s, [], rfl, (List.append_nil s).symm, ⟨by simp [rank]; omega, h.2, h.3⟩, .nil⟩
  | grouping e _ => exact ⟨_, [], s, [], rfl, (List.append_nil s).symm, ⟨by simp [rank]; omega, h.2, h.3⟩, .nil⟩
  | unary op e _ => exact ⟨_, [], s, [], rfl, (List.append_nil s).symm, ⟨by simp [rank]; omega, h.2, h.3⟩, .nil⟩
  | binary l op r ihl _ =>
    obtain ⟨hle, ⟨k, hk, hl, hr, hcl, hcr⟩, hs⟩ := h
    obtain _ | _ | _ | ⟨hsl, hsr⟩ := hs
    have hrank : (Expr.binary l op r).rank = k := by simp [rank, hk]
    rw [hrank] at hle
    rcases Nat.lt_or_eq_of_le hle with hlt | rfl
    · exact ⟨_, [], _, [], rfl, (List.append_nil _).symm,
        ⟨by rw [hrank]; exact hlt, ⟨k, hk, hl, hr, hcl, hcr⟩, .binary hsl hsr⟩, .nil⟩
    · obtain ⟨a, ops, p, q, rfl, rfl, ha, ht⟩ := ihl ⟨hl, hcl, hsl⟩
      exact ⟨a, ops ++ [(op, r)], p, _, by simp, by simp, ha, ht.concat hk ⟨hr, hcr, hsr⟩⟩

theorem rank_fold (ho : ∀ o ∈ ops, o.1.kind.binaryRank? = some m) (hne : ops ≠ []) : (a.fold ops).rank = m := by
  rcases List.eq_nil_or_concat ops with rfl | ⟨front, o, rfl⟩
  · exact absurd rfl hne
  · rw [List.concat_eq_append, fold_concat]
    simp [rank, ho o (by simp)]

theorem chainLength_fold (ha : m < a.rank) (ho : ∀ o ∈ ops, o.1.kind.binaryRank? = some m) (hne : ops ≠ []) :
    (a.fold ops).chainLength = ops.length := by
  induction ops using List.reverseRecOn with
  | nil => exact absurd rfl hne
  | append_singleton ops o ih =>
    have ho' : ∀ x ∈ ops, x.1.kind.binaryRank? = some m := fun x hx => ho x (by simp [hx])
    rw [fold_concat]
    simp only [chainLength, ho o (by simp), Option.getD_some, List.length_append, List.length_singleton]
    by_cases hops : ops = []
    · subst hops
      simp [Nat.ne_of_gt ha]
    · rw [if_pos (rank_fold ho' hops), ih ho' hops]

/-- **The limits of a chain**: those of the operand it begins with, and those of its operators in order. -/
theorem fitsAt_fold (ha : m < a.rank) (ho : ∀ o ∈ ops, o.1.kind.binaryRank? = some m) (d h : Nat) :
    (a.fold ops).FitsAt d h ↔ a.FitsAt d h ∧ TailFits d h ops := by
  induction ops using List.reverseRecOn with
  | nil => simp [TailFits]
  | append_singleton ops o ih =>
    have ho' : ∀ x ∈ ops, x.1.kind.binaryRank? = some m := fun x hx => ho x (by simp [hx])
    have hk : (binary (a.fold ops) o.1 o.2).chainLength = ops.length + 1 := by
      rw [← fold_concat, chainLength_fold ha ho (by simp)]
      simp
    rw [fold_concat, FitsAt, hk, ih ho', tailFits_concat]
    simp only [Nat.succ_le_iff, ← Nat.add_assoc]
    tauto

end Chain

end Expr

end LoxCalc
