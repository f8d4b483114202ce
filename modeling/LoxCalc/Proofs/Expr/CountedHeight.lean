import LoxCalc.Proofs.Expr.Height
import Mathlib.Order.Monotone.Basic

/-!
# LoxCalc.Proofs.Expr.CountedHeight — trees within the limits that are refused

The right operand of a binary operator stands one node below it.  The parser counts as many nodes for it as there are
operators of the level up to it, so a tree can be counted taller than it is, and be refused although no path of it is
too long: `1 + … + 1 + 1 * … * 1` is the plainest case (`endingInProduct`).

`mostCounted` is the greatest height that is counted for a tree of a given height: a chain as long as the tree is high,
whose last operand is such a chain of the next level, and so on; behind the tightest level comes a pair of parentheses
(`countedHeight_le_mostCounted`, `exists_countedHeight_eq_mostCounted`).  With `maxHeight` nodes to spend, all trees of
at most 50 nodes on a path are read, and not all of 51.
-/

namespace LoxCalc

namespace Expr

/-- The tree of the expression that the tokens before the first end begin with; no binary operator follows it. -/
def IsTreeOf (e : Expr) (tokens : List Token) : Prop :=
  ∃ p rest, tokens.takeWhile (·.kind != .eof) = p ++ rest ∧
    (∀ t ∈ rest.head?, t.kind.isBinaryOperator = false) ∧ e.Canonical ∧ e.Spells p

/-- The limits on the tree itself: on prefix operators and groupings, and on all nodes of a path with its leaf. -/
structure WithinLimits (e : Expr) : Prop where
  nesting_le : e.nesting ≤ maxNesting
  height_le : e.height + 1 ≤ maxHeight

theorem IsTreeOf.canonical {e : Expr} {tokens : List Token} (h : e.IsTreeOf tokens) : e.Canonical := by
  obtain ⟨_, _, _, _, hc, _⟩ := h
  exact hc

theorem Phrase.isTreeOf {e : Expr} {p : List Token} (hp : Phrase 0 e p) : e.IsTreeOf p :=
  ⟨p, [], hp.takeWhile_eq, by simp, hp.canonical, hp.spells⟩

/-! ## The height that is counted for a tree of a given height -/

theorem nesting_le_height (e : Expr) : e.nesting ≤ e.height := by
  induction e with
  | literal v => exact Nat.le_refl 0
  | grouping e ih => exact Nat.succ_le_succ ih
  | unary op e ih => exact Nat.succ_le_succ ih
  | binary l op r ihl ihr =>
    simp only [nesting, height]
    omega

theorem chainLength_le_height (e : Expr) : e.chainLength ≤ e.height := by
  induction e with
  | binary l op r ihl _ =>
    simp only [chainLength, height]
    split
    · omega
    · omega
  | _ => exact Nat.zero_le _

/-- The greatest height that is counted for a tree of a given height with so many levels of binary operators: a full
chain of the first level in front of such a tree with one level less, or a pair of parentheses. -/
def mostCounted : (levels height : Nat) → Nat
  | _, 0 => 0
  | 0, h + 1 => 1 + mostCounted 4 h
  | n + 1, h + 1 => h + 1 + mostCounted n h

theorem mostCounted_le_succ : ∀ h n : Nat, mostCounted n h ≤ mostCounted n (h + 1)
  | 0, _ => by simp [mostCounted]
  | h + 1, 0 => Nat.add_le_add_left (mostCounted_le_succ h 4) 1
  | h + 1, n + 1 => Nat.add_le_add (Nat.le_succ _) (mostCounted_le_succ h n)

theorem mostCounted_le_succ_levels : ∀ h n : Nat, mostCounted n h ≤ mostCounted (n + 1) h
  | 0, _ => by simp [mostCounted]
  | 1, 0 => by simp [mostCounted]
  | h + 2, 0 => by
    -- a pair of parentheses counts one node, and so does the chain that takes its place
    have : mostCounted 3 h ≤ mostCounted 4 h := mostCounted_le_succ_levels h 3
    simp only [mostCounted]
    omega
  | h + 1, n + 1 => Nat.add_le_add_left (mostCounted_le_succ_levels h n) _

theorem mostCounted_mono {n n' h h' : Nat} (hn : n ≤ n') (hh : h ≤ h') : mostCounted n h ≤ mostCounted n' h' :=
  (monotone_nat_of_le_succ (mostCounted_le_succ · n) hh).trans
    (monotone_nat_of_le_succ (mostCounted_le_succ_levels h') hn)

/-- A node that is no binary operator, with all levels below it. -/
theorem countedHeight_succ_le {e : Expr} (h : e.countedHeight ≤ mostCounted 4 e.height) (n : Nat) :
    e.countedHeight + 1 ≤ mostCounted n (e.height + 1) := by
  have hmono := mostCounted_mono (Nat.zero_le n) (Nat.le_refl (e.height + 1))
  rw [mostCounted] at hmono
  omega

/-- **No tree is counted taller.** -/
theorem countedHeight_le_mostCounted {e : Expr} (hc : e.Canonical) :
    ∀ {n : Nat}, 4 - e.rank ≤ n → e.countedHeight ≤ mostCounted n e.height := by
  induction e with
  | literal v =>
    intro n _
    exact Nat.zero_le _
  | grouping e ih =>
    intro n _
    exact countedHeight_succ_le (ih hc (Nat.sub_le 4 e.rank)) n
  | unary op e ih =>
    intro n _
    exact countedHeight_succ_le (ih hc.2.2 (Nat.sub_le 4 e.rank)) n
  | binary l op r ihl ihr =>
    intro n hn
    obtain ⟨m, hm, hl, hr, hcl, hcr⟩ := hc
    have hm4 := TokenKind.binaryRank?_lt hm
    have hrank : (binary l op r).rank = m := by simp [rank, hm]
    have hchain := chainLength_le_height (binary l op r)
    rw [hrank] at hn
    obtain ⟨n, rfl⟩ : ∃ k, n = k + 1 := ⟨n - 1, by omega⟩
    have hleft := (ihl hcl (show 4 - l.rank ≤ n + 1 by omega)).trans
      (mostCounted_mono (Nat.le_refl _) (show l.height ≤ max l.height r.height + 1 by omega))
    have hright := (ihr hcr (show 4 - r.rank ≤ n by omega)).trans
      (mostCounted_mono (Nat.le_refl _) (Nat.le_max_right l.height r.height))
    simp only [mostCounted] at hleft
    simp only [countedHeight, height, mostCounted] at hchain ⊢
    omega

/-! ## Trees that are counted as tall as can be -/

section Ones

variable {m : Nat} {op : Token}

/-- A chain of ones. -/
def ones (op : Token) (k : Nat) : Expr := one.fold (List.replicate k (op, one))

def onesTokens (op : Token) (k : Nat) : List Token := oneToken :: (List.replicate k [op, oneToken]).flatten

theorem phrase_ones (hop : op.kind.binaryRank? = some m) (k : Nat) : Phrase m (ones op k) (onesTokens op k) :=
  (tail_ones hop k).phrase_fold (phrase_one (by have := TokenKind.binaryRank?_lt hop; omega))

theorem ones_succ (op : Token) (k : Nat) : ones op (k + 1) = binary (ones op k) op one := by
  rw [ones, List.replicate_succ', fold_concat, ones]

theorem height_ones (op : Token) (k : Nat) : (ones op k).height = k := by
  rw [ones, height_fold_ones]
  exact Nat.zero_add k

theorem nesting_ones (op : Token) : ∀ k : Nat, (ones op k).nesting = 0
  | 0 => rfl
  | k + 1 => by
    rw [ones_succ, nesting, nesting_ones op k]
    rfl

theorem chainLength_binary_ones (hop : op.kind.binaryRank? = some m) (k : Nat) (r : Expr) :
    (binary (ones op k) op r).chainLength = k + 1 := by
  have hone : m < one.rank := Nat.lt_trans (TokenKind.binaryRank?_lt hop) (Nat.lt_succ_self 4)
  have hops : ∀ o ∈ List.replicate k (op, one) ++ [(op, r)], o.1.kind.binaryRank? = some m := by
    intro o ho
    rcases List.mem_append.1 ho with ho | ho
    · rwa [List.eq_of_mem_replicate ho]
    · rwa [List.mem_singleton.1 ho]
  have hlength := chainLength_fold hone hops (List.concat_ne_nil _ _)
  rw [fold_concat] at hlength
  rw [ones, hlength]
  simp

theorem countedHeight_ones (hop : op.kind.binaryRank? = some m) : ∀ k : Nat, (ones op k).countedHeight = k
  | 0 => rfl
  | k + 1 => by
    rw [ones_succ, countedHeight, chainLength_binary_ones hop, countedHeight_ones hop k]
    exact Nat.max_eq_right (Nat.le_succ k)

/-- Behind a chain of ones the right operand counts the whole chain. -/
theorem countedHeight_binary_ones (hop : op.kind.binaryRank? = some m) (k : Nat) (r : Expr) :
    (binary (ones op k) op r).countedHeight = k + 1 + r.countedHeight := by
  rw [countedHeight, chainLength_binary_ones hop, countedHeight_ones hop]
  omega

/-- There is an operator on every level. -/
theorem exists_binaryRank {m : Nat} (hm : m < 4) : ∃ op : Token, op.kind.binaryRank? = some m := by
  have hkinds : ∀ k < 4, ∃ kind ∈ TokenKind.all, kind.binaryRank? = some k := by decide
  obtain ⟨kind, -, hkind⟩ := hkinds m hm
  exact ⟨⟨kind, "", none, 1⟩, hkind⟩

/-- **The bound is reached** for every height. -/
theorem exists_countedHeight_eq_mostCounted : ∀ (h : Nat) {n : Nat}, n ≤ 4 →
    ∃ e p, Phrase (4 - n) e p ∧ e.height = h ∧ e.countedHeight = mostCounted n h
  | 0, n, _ => ⟨one, _, phrase_one (by omega), rfl, by rw [mostCounted]; rfl⟩
  | h + 1, 0, _ => by
    obtain ⟨e, p, he, hheight, hcounted⟩ := exists_countedHeight_eq_mostCounted h (Nat.le_refl 4)
    have hphrase : Phrase 4 (grouping e) (⟨.leftParen, "(", none, 1⟩ :: (p ++ [⟨.rightParen, ")", none, 1⟩])) :=
      he.grouping rfl rfl (Nat.le_refl 4)
    refine ⟨grouping e, _, hphrase, congrArg Nat.succ hheight, ?_⟩
    rw [countedHeight, hcounted, mostCounted, Nat.add_comm]
  | h + 1, n + 1, hn => by
    obtain ⟨r, q, hr, hheight, hcounted⟩ := exists_countedHeight_eq_mostCounted h (show n ≤ 4 by omega)
    obtain ⟨op, hop⟩ := exists_binaryRank (show 4 - (n + 1) < 4 by omega)
    rw [show 4 - n = 4 - (n + 1) + 1 by omega] at hr
    refine ⟨binary (ones op h) op r, _, (phrase_ones hop h).binary hop hr (Nat.le_refl _), ?_, ?_⟩
    · rw [height, height_ones, hheight, Nat.max_self]
    · rw [countedHeight_binary_ones hop, hcounted, mostCounted]

end Ones

end Expr

open LoxCalc.Expr

/-! ## What is read and what is refused -/

/-- The tree of the expression that a list begins with is read iff it keeps the limits as they are counted. -/
theorem Expr.IsTreeOf.parse_iff {e : Expr} {tokens : List Token} (h : e.IsTreeOf tokens) :
    (parse tokens = .ok e ↔ e.nesting ≤ maxNesting ∧ e.countedHeight ≤ maxHeight) ∧
      (parse tokens ≠ .ok e → ∃ t, parse tokens = .error (.atToken t SyntaxCause.tooMuchNesting.message)) := by
  obtain ⟨p, rest, hb, hs, hc, hsp⟩ := h
  obtain ⟨hok, hrefused⟩ := parse_of_phrase hb ⟨Nat.zero_le _, hc, hsp⟩ (stops_zero_iff.2 hs)
  have hfits := fitsAt_iff e (Nat.zero_le _) (Nat.zero_le _)
  simp only [Nat.zero_add] at hfits
  rw [← hfits]
  by_cases hf : e.FitsAt 0 0
  · exact ⟨iff_of_true (hok hf) hf, fun hno => absurd (hok hf) hno⟩
  · obtain ⟨t, ht⟩ := hrefused hf
    refine ⟨iff_of_false ?_ hf, fun _ => ⟨t, ht⟩⟩
    rw [ht]
    exact fun h => nomatch h

/-- **Which trees are read**: all of at most 50 nodes on a path, the leaf included, and not all of 51. -/
theorem forall_parse_eq_ok_iff (b : Nat) :
    (∀ tokens e, e.IsTreeOf tokens → e.nesting ≤ maxNesting → e.height + 1 ≤ b → parse tokens = .ok e) ↔ b ≤ 50 := by
  constructor
  · intro h
    by_contra hb
    obtain ⟨e, p, he, hheight, hcounted⟩ := exists_countedHeight_eq_mostCounted 50 (Nat.le_refl 4)
    have htree : e.IsTreeOf p := Phrase.isTreeOf he
    have hnesting := nesting_le_height e
    have hparse := h p e htree (by simp only [maxNesting]; omega) (by omega)
    have hle := (htree.parse_iff.1.1 hparse).2
    have hmost : mostCounted 4 50 = 1050 := by decide
    simp only [maxHeight] at hle
    omega
  · intro hb tokens e htree hnesting hheight
    have hcounted := countedHeight_le_mostCounted htree.canonical (Nat.sub_le 4 e.rank)
    have hmost : mostCounted 4 49 = 1009 := by decide
    have hmono := mostCounted_mono (Nat.le_refl 4) (show e.height ≤ 49 by omega)
    refine htree.parse_iff.1.2 ⟨hnesting, ?_⟩
    simp only [maxHeight]
    omega

/-- **When an expression within the limits is read**: iff it keeps the limit of height as it is counted, and else it is
refused for nesting; for all expressions, the limit of nodes on a path may be 50 and no more. -/
theorem parse_eq_ok_iff_countedHeight {tokens : List Token} {e : Expr} (h : e.IsTreeOf tokens) (hl : e.WithinLimits)
    (b : Nat) :
    (parse tokens = .ok e ↔ e.countedHeight ≤ maxHeight) ∧
      (parse tokens ≠ .ok e → ∃ t, parse tokens = .error (.atToken t "Too much nesting.")) ∧
      ((∀ ts e', e'.IsTreeOf ts → e'.nesting ≤ maxNesting → e'.height + 1 ≤ b → parse ts = .ok e') ↔ b ≤ 50) := by
  obtain ⟨hiff, hrefused⟩ := h.parse_iff
  refine ⟨?_, hrefused, forall_parse_eq_ok_iff b⟩
  rw [hiff]
  exact and_iff_right hl.nesting_le

/-! ### A sum whose last term is a product -/

/-- The tree of `1 + … + 1 + 1 * … * 1`, with one addition more than `k`, and `n` multiplications. -/
def endingInProduct (k n : Nat) : Expr :=
  .binary (ones ⟨.plus, "+", none, 1⟩ k) ⟨.plus, "+", none, 1⟩ (ones ⟨.star, "*", none, 1⟩ n)

def endingInProductTokens (k n : Nat) : List Token :=
  onesTokens ⟨.plus, "+", none, 1⟩ k ++ ⟨.plus, "+", none, 1⟩ :: onesTokens ⟨.star, "*", none, 1⟩ n

theorem isTreeOf_endingInProduct (k n : Nat) : (endingInProduct k n).IsTreeOf (endingInProductTokens k n) :=
  Phrase.isTreeOf ((phrase_ones rfl k).binary rfl (phrase_ones rfl n) (Nat.zero_le 2))

theorem withinLimits_endingInProduct {k n : Nat} (hk : k ≤ 1022) (hn : n ≤ 1022) :
    (endingInProduct k n).WithinLimits where
  nesting_le := by
    rw [endingInProduct, nesting, nesting_ones, nesting_ones]
    exact Nat.zero_le _
  height_le := by
    simp only [endingInProduct, height, height_ones, maxHeight]
    omega

theorem countedHeight_endingInProduct (k n : Nat) : (endingInProduct k n).countedHeight = k + 1 + n := by
  rw [endingInProduct, countedHeight_binary_ones rfl, countedHeight_ones rfl]

/-- With 512 additions and 512 multiplications the counted height is the limit. -/
theorem parse_endingInProduct_ok :
    (endingInProduct 511 512).IsTreeOf (endingInProductTokens 511 512) ∧ (endingInProduct 511 512).WithinLimits ∧
      parse (endingInProductTokens 511 512) = .ok (endingInProduct 511 512) := by
  have htree := isTreeOf_endingInProduct 511 512
  have hlimits : (endingInProduct 511 512).WithinLimits := withinLimits_endingInProduct (by decide) (by decide)
  refine ⟨htree, hlimits, (parse_eq_ok_iff_countedHeight htree hlimits 50).1.2 ?_⟩
  exact (countedHeight_endingInProduct 511 512).le

/-- **An expression within the limits that is refused**: with one addition more its tree has 514 nodes on a path, and
no grouping or prefix operator at all. -/
theorem parse_endingInProduct_refused :
    (endingInProduct 512 512).IsTreeOf (endingInProductTokens 512 512) ∧ (endingInProduct 512 512).WithinLimits ∧
      (endingInProduct 512 512).height + 1 = 514 ∧ (endingInProduct 512 512).nesting = 0 ∧
      ∃ t, parse (endingInProductTokens 512 512) = .error (.atToken t "Too much nesting.") := by
  have htree := isTreeOf_endingInProduct 512 512
  refine ⟨htree, withinLimits_endingInProduct (by decide) (by decide), ?_, ?_, htree.parse_iff.2 ?_⟩
  · rw [endingInProduct, height, height_ones, height_ones]
    rfl
  · rw [endingInProduct, nesting, nesting_ones, nesting_ones]
    rfl
  · intro hok
    have hle := (htree.parse_iff.1.1 hok).2
    rw [countedHeight_endingInProduct] at hle
    exact absurd hle (by decide)

end LoxCalc
