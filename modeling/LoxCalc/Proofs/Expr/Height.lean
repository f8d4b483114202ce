import LoxCalc.Proofs.Expr.Parsing
import Mathlib.Data.List.TakeWhile

/-!
# LoxCalc.Proofs.Expr.Height — how tall the trees of the parser are

The limit of height counts the operators *before* an operand on its level.  In the tree, which folds to the left, it
is the operators *after* an operand that stand above it, so `Expr.countedHeight` and `Expr.height` differ: a chain
below the first operand of a longer chain is not counted at all.

* `fitsAt_iff`: the two limits in closed form.
* `parse_negatedSum`: a tree of `maxHeight + 1` nodes on one path that the parser builds.
* `height_le_of_parse`, `exists_parse_height_eq`: the least bound on the height of the trees for all lists.
-/

namespace LoxCalc

open LoxCalc.Expr

namespace Expr

/-- The most prefix operators and groupings on a path to a leaf. -/
def nesting : Expr → Nat
  | literal _ => 0
  | grouping e => e.nesting + 1
  | unary _ e => e.nesting + 1
  | binary l _ r => max l.nesting r.nesting

/-- The height as the parser counts it: below a binary operator the left operand counts nothing for it, and the right
operand counts all operators of the level up to it. -/
def countedHeight : Expr → Nat
  | literal _ => 0
  | grouping e => e.countedHeight + 1
  | unary _ e => e.countedHeight + 1
  | binary l op r => max l.countedHeight ((binary l op r).chainLength + r.countedHeight)

/-- The limits inside one more pair of parentheses or prefix operator, from those of the tree there. -/
theorem inside_iff {e : Expr} {d h : Nat} (ih : d < maxNesting → h < maxHeight →
      (e.FitsAt (d + 1) (h + 1) ↔ d + 1 + e.nesting ≤ maxNesting ∧ h + 1 + e.countedHeight ≤ maxHeight)) :
    d < maxNesting ∧ h < maxHeight ∧ e.FitsAt (d + 1) (h + 1) ↔
      d + (e.nesting + 1) ≤ maxNesting ∧ h + (e.countedHeight + 1) ≤ maxHeight := by
  constructor
  · rintro ⟨h1, h2, h3⟩
    have := (ih h1 h2).1 h3
    omega
  · intro h1
    exact ⟨by omega, by omega, (ih (by omega) (by omega)).2 (by omega)⟩

/-- **The limits in closed form.** -/
theorem fitsAt_iff (e : Expr) : ∀ {d h : Nat}, d ≤ maxNesting → h ≤ maxHeight →
    (e.FitsAt d h ↔ d + e.nesting ≤ maxNesting ∧ h + e.countedHeight ≤ maxHeight) := by
  induction e with
  | literal v =>
    intro d h hd hh
    simp [FitsAt, nesting, countedHeight, hd, hh]
  | grouping e ih =>
    intro d h _ _
    exact inside_iff (fun h1 h2 => ih h1 h2)
  | unary op e ih =>
    intro d h _ _
    exact inside_iff (fun h1 h2 => ih h1 h2)
  | binary l op r ihl ihr =>
    intro d h hd hh
    simp only [FitsAt, nesting, countedHeight]
    generalize (binary l op r).chainLength = k
    constructor
    · rintro ⟨h1, h2, h3⟩
      have hl := (ihl hd hh).1 h2
      have hr := (ihr hd h1).1 h3
      omega
    · intro h1
      exact ⟨by omega, (ihl hd hh).2 (by omega), (ihr hd (by omega)).2 (by omega)⟩

/-! ## The tallest trees -/

/-- The greatest height of an operand in a room of nesting and height: a pair of parentheses around four chains, one
for each level, that fill the height below it. -/
def tallest : (nesting height : Nat) → Nat
  | 0, _ => 0
  | _ + 1, 0 => 0
  | n + 1, h + 1 => tallest n h + 4 * h + 1

theorem tallest_mono : ∀ {n h h' : Nat}, h ≤ h' → tallest n h ≤ tallest n h'
  | 0, _, _, _ => by simp [tallest]
  | _ + 1, 0, _, _ => by simp [tallest]
  | n + 1, h + 1, 0, hh => by omega
  | n + 1, h + 1, h' + 1, hh => by
    have := tallest_mono (n := n) (Nat.le_of_succ_le_succ hh)
    simp only [tallest]
    omega

/-- The sum in closed form. -/
theorem tallest_add : ∀ {n h : Nat}, n ≤ h → tallest n h + 2 * n * n + n = 4 * n * h
  | 0, h, _ => by simp [tallest]
  | n + 1, h + 1, hn => by
    have := tallest_add (Nat.le_of_succ_le_succ hn)
    simp only [tallest, Nat.mul_add, Nat.add_mul, Nat.mul_one] at this ⊢
    omega

theorem chainLength_le {e : Expr} {d h : Nat} (hf : e.FitsAt d h) (hh : h ≤ maxHeight) :
    h + e.chainLength ≤ maxHeight := by
  cases e with
  | binary l op r => exact hf.1
  | _ => exact hh

theorem chainLength_eq_zero {e : Expr} (hr : 4 ≤ e.rank) (hc : e.Canonical) : e.chainLength = 0 := by
  cases e with
  | binary l op r =>
    obtain ⟨m, hm, -⟩ := hc
    have := TokenKind.binaryRank?_lt hm
    simp only [rank, hm, Option.getD_some] at hr
    omega
  | _ => rfl

/-- The chain of a tree and full chains on the tighter levels are at most full chains on all levels from `m` on. -/
theorem chains_le {e : Expr} {d h m room : Nat} (hc : e.Canonical) (hf : e.FitsAt d h) (hh : room + h = maxHeight)
    (hm : m ≤ e.rank) : (3 - e.rank) * room + e.chainLength ≤ (4 - m) * room := by
  by_cases hr : 4 ≤ e.rank
  · rw [chainLength_eq_zero hr hc, show 3 - e.rank = 0 by omega]
    simp
  · have := chainLength_le hf (by omega)
    calc (3 - e.rank) * room + e.chainLength ≤ (3 - e.rank) * room + room := by omega
      _ = (4 - e.rank) * room := by rw [← Nat.succ_mul, show (3 - e.rank).succ = 4 - e.rank by omega]
      _ ≤ (4 - m) * room := Nat.mul_le_mul_right _ (by omega)

/-- One more pair of parentheses or prefix operator: the height there is at most that of full chains on all levels. -/
theorem height_inside_le {e : Expr} {n room d h : Nat} (hc : e.Canonical) (hf : FitsInside d h e)
    (hn : n + d = maxNesting) (hh : room + h = maxHeight)
    (hle : e.height ≤ tallest (n - 1) (room - 1) + ((3 - e.rank) * (room - 1) + e.chainLength)) :
    e.height + 1 ≤ tallest n room := by
  obtain ⟨hd, hlt, hf⟩ := hf
  obtain ⟨n, rfl⟩ : ∃ k, n = k + 1 := ⟨n - 1, by omega⟩
  obtain ⟨room, rfl⟩ : ∃ k, room = k + 1 := ⟨room - 1, by omega⟩
  have hh' : room + (h + 1) = maxHeight := by omega
  have hch := chains_le hc hf hh' (Nat.zero_le _)
  simp only [Nat.add_sub_cancel] at hle
  simp only [tallest]
  omega

/-- **The height of a tree that fits**: the tallest operand, full chains on the tighter levels, and its own chain. -/
theorem height_le_add_chainLength (e : Expr) : ∀ (n room : Nat) {d h : Nat}, e.Canonical → e.FitsAt d h →
    n + d = maxNesting → room + h = maxHeight →
    e.height ≤ tallest n room + ((3 - e.rank) * room + e.chainLength) := by
  induction e with
  | literal v =>
    intro n room d h _ _ _ _
    simp [height]
  | grouping e ih =>
    intro n room d h hc hf hn hh
    have ⟨hd, hlt, hf'⟩ : FitsInside d h e := hf
    have := height_inside_le (e := e) hc hf hn hh (ih (n - 1) (room - 1) hc hf' (by omega) (by omega))
    simp only [height]
    omega
  | unary op e ih =>
    intro n room d h hc hf hn hh
    have ⟨hd, hlt, hf'⟩ : FitsInside d h e := hf
    have := height_inside_le (e := e) hc.2.2 hf hn hh (ih (n - 1) (room - 1) hc.2.2 hf' (by omega) (by omega))
    simp only [height]
    omega
  | binary l op r ihl ihr =>
    intro n room d h hc hf hn hh
    obtain ⟨m, hm, hl, hr, hcl, hcr⟩ := hc
    obtain ⟨hk, hfl, hfr⟩ := hf
    have hm4 := TokenKind.binaryRank?_lt hm
    have h3 : 4 - (m + 1) = 3 - m := by omega
    have hrank : (binary l op r).rank = m := by simp [rank, hm]
    have hlen : (binary l op r).chainLength = (if l.rank = m then l.chainLength else 0) + 1 := by
      simp [chainLength, hm]
    generalize (binary l op r).chainLength = k at hk hfr hlen ⊢
    -- the right operand counts the whole chain, and so has less room
    have hh' : (room - k) + (h + k) = maxHeight := by omega
    have hright : r.height + 1 ≤ tallest n room + ((3 - m) * room + k) := by
      have hle := ihr n (room - k) hcr hfr hn hh'
      have hch := chains_le hcr hfr hh' hr
      have hmono := tallest_mono (n := n) (Nat.sub_le room k)
      have hmul := Nat.mul_le_mul_left (3 - m) (Nat.sub_le room k)
      rw [h3] at hch
      omega
    -- the left operand is the chain without its last operator, or binds tighter
    have hleft : l.height + 1 ≤ tallest n room + ((3 - m) * room + k) := by
      have hle := ihl n room hcl hfl hn hh
      by_cases hlm : l.rank = m
      · rw [if_pos hlm] at hlen
        rw [hlm] at hle
        omega
      · have hch := chains_le hcl hfl hh (show m + 1 ≤ l.rank by omega)
        rw [h3] at hch
        omega
    rw [hrank]
    simp only [height]
    omega

theorem height_le {e : Expr} {m d h : Nat} (n room : Nat) (hc : e.Canonical) (hf : e.FitsAt d h)
    (hn : n + d = maxNesting) (hh : room + h = maxHeight) (hm : m ≤ e.rank) :
    e.height ≤ tallest n room + (4 - m) * room :=
  Nat.le_trans (height_le_add_chainLength e n room hc hf hn hh) (Nat.add_le_add_left (chains_le hc hf hh hm) _)

/-! ## Building them -/

section Ones

/-- The token of the numeral `1`. -/
def oneToken : Token := ⟨.number, "1", some (.number (.ofNumeral ['1'] [])), 1⟩

/-- The literal that `oneToken` stands for. -/
def one : Expr := literal (.number (.ofNumeral ['1'] []))

variable {m : Nat} {op : Token}

theorem phrase_one (hm : m ≤ 5) : Phrase m one [oneToken] := ⟨hm, trivial, .literal rfl⟩

theorem tail_ones (hop : op.kind.binaryRank? = some m) : ∀ k : Nat,
    Tail m (List.replicate k (op, one)) (List.replicate k [op, oneToken]).flatten
  | 0 => .nil
  | k + 1 => .cons hop (phrase_one (by have := TokenKind.binaryRank?_lt hop; omega)) (tail_ones hop k)

theorem tailFits_ones (d : Nat) : ∀ {k h : Nat}, h + k ≤ maxHeight → TailFits d h (List.replicate k (op, one))
  | 0, _, _ => trivial
  | _ + 1, _, hk => ⟨by omega, trivial, tailFits_ones d (by omega)⟩

theorem height_fold_ones : ∀ (k : Nat) (a : Expr), (a.fold (List.replicate k (op, one))).height = a.height + k
  | 0, _ => rfl
  | k + 1, a => by
    rw [List.replicate_succ, fold_cons, height_fold_ones k]
    simp only [height, one]
    omega

/-- On every level a chain as long as there is room adds its length to the height. -/
theorem exists_chain (op : Token) {a : Expr} {p : List Token} {d h room : Nat} (hop : op.kind.binaryRank? = some m)
    (ha : Phrase (m + 1) a p) (hf : a.FitsAt d h) (hh : room + h = maxHeight) :
    ∃ e q, Phrase m e q ∧ e.FitsAt d h ∧ e.height = a.height + room := by
  have ht := tail_ones hop room
  exact ⟨_, _, ht.phrase_fold (ha.mono (Nat.le_succ m)),
    (fitsAt_fold ha.rank_le ht.rank_eq d h).2 ⟨hf, tailFits_ones d (by omega)⟩, height_fold_ones room a⟩

theorem exists_chains {a : Expr} {p : List Token} {d h room : Nat} (ha : Phrase 4 a p) (hf : a.FitsAt d h)
    (hh : room + h = maxHeight) : ∃ e q, Phrase 0 e q ∧ e.FitsAt d h ∧ e.height = a.height + 4 * room := by
  obtain ⟨b, _, hb, hfb, hhb⟩ := exists_chain ⟨.star, "*", none, 1⟩ rfl ha hf hh
  obtain ⟨c, _, hc, hfc, hhc⟩ := exists_chain ⟨.plus, "+", none, 1⟩ rfl hb hfb hh
  obtain ⟨e, _, he, hfe, hhe⟩ := exists_chain ⟨.less, "<", none, 1⟩ rfl hc hfc hh
  obtain ⟨f, q, hq, hfq, hhq⟩ := exists_chain ⟨.equalEqual, "==", none, 1⟩ rfl he hfe hh
  exact ⟨f, q, hq, hfq, by omega⟩

/-- **The bound on operands is reached** in every room. -/
theorem exists_height_eq_tallest : ∀ (n : Nat) {room d h : Nat}, n + d = maxNesting → room + h = maxHeight →
    ∃ e p, Phrase 4 e p ∧ e.FitsAt d h ∧ e.height = tallest n room
  | 0, _, _, _, _, _ => ⟨one, _, phrase_one (by omega), trivial, rfl⟩
  | _ + 1, 0, _, _, _, _ => ⟨one, _, phrase_one (by omega), trivial, rfl⟩
  | n + 1, room + 1, d, h, hn, hh => by
    have hh' : room + (h + 1) = maxHeight := by omega
    obtain ⟨a, p, ha, hfa, hha⟩ := exists_height_eq_tallest n (show n + (d + 1) = maxNesting by omega) hh'
    obtain ⟨e, q, he, hfe, hhe⟩ := exists_chains ha hfa hh'
    refine ⟨grouping e, ⟨.leftParen, "(", none, 1⟩ :: (q ++ [⟨.rightParen, ")", none, 1⟩]),
      ⟨by simp [rank], he.canonical, .grouping rfl rfl he.spells⟩, ⟨by omega, by omega, hfe⟩, ?_⟩
    simp only [height, tallest]
    omega

end Ones

end Expr

/-! ## The trees of the parser -/

/-- A phrase holds no end. -/
theorem Expr.Phrase.takeWhile_eq {e : Expr} {p : List Token} (hp : Phrase 0 e p) :
    p.takeWhile (·.kind != .eof) = p ++ [] := by
  rw [List.append_nil, List.takeWhile_eq_self_iff]
  intro t ht
  simpa using hp.spells.kind_ne_eof hp.canonical t ht

theorem Expr.Phrase.parse_eq_ok {e : Expr} {p : List Token} (hp : Phrase 0 e p) (hf : e.FitsAt 0 0) :
    parse p = .ok e :=
  (parse_of_phrase hp.takeWhile_eq hp trivial).1 hf

theorem height_le_of_parse {tokens : List Token} {e : Expr} (h : parse tokens = .ok e) : e.height ≤ 495488 := by
  obtain ⟨p, rest, -, hp, hf, -⟩ := exists_phrase_of_parse h
  have hle := height_le maxNesting maxHeight hp.canonical hf (Nat.add_zero _) (Nat.add_zero _) (Nat.zero_le _)
  have ht := tallest_add (show maxNesting ≤ maxHeight by decide)
  simp only [maxNesting, maxHeight] at hle ht
  omega

theorem exists_parse_height_eq : ∃ tokens e, parse tokens = .ok e ∧ e.height = 495488 := by
  obtain ⟨a, p, ha, hfa, hha⟩ := exists_height_eq_tallest maxNesting (Nat.add_zero _) (Nat.add_zero maxHeight)
  obtain ⟨e, q, he, hfe, hhe⟩ := exists_chains ha hfa (Nat.add_zero maxHeight)
  refine ⟨q, e, he.parse_eq_ok hfe, ?_⟩
  have ht := tallest_add (show maxNesting ≤ maxHeight by decide)
  simp only [maxNesting, maxHeight] at hha hhe ht
  omega

/-- The list `-1 + 1 + … + 1` with `k` additions. -/
def negatedSum (k : Nat) : List Token :=
  ⟨.minus, "-", none, 1⟩ :: oneToken :: (List.replicate k [⟨.plus, "+", none, 1⟩, oneToken]).flatten

theorem parse_negatedSum {k : Nat} (hk : k ≤ maxHeight) :
    ∃ e, parse (negatedSum k) = .ok e ∧ e.height = k + 1 := by
  have ha : Phrase 3 (unary ⟨.minus, "-", none, 1⟩ one) [⟨.minus, "-", none, 1⟩, oneToken] :=
    ⟨by simp [rank], ⟨rfl, by simp [one, rank], trivial⟩, .unary (.literal rfl)⟩
  have ht : Tail 2 (List.replicate k (⟨.plus, "+", none, 1⟩, one)) _ := tail_ones rfl k
  refine ⟨_, (ht.phrase_fold (ha.mono (by omega)) |>.mono (Nat.zero_le 2)).parse_eq_ok ?_, ?_⟩
  · exact (fitsAt_fold ha.rank_le ht.rank_eq 0 0).2 ⟨⟨by decide, by decide, trivial⟩, tailFits_ones 0 (by omega)⟩
  · rw [height_fold_ones]
    simp only [height, one]
    omega

/-- **When the trees of the parser keep the limit of height**: for one list, iff the tree it begins with does so, or
is refused for its nesting or its counted height; for all lists, every bound from 495488 on holds and no smaller
one. -/
theorem parse_height_le_iff (tokens : List Token) (b : Nat) :
    ((∀ e, parse tokens = .ok e → e.height ≤ maxHeight) ↔
      ∀ (p rest : List Token) (e : Expr), tokens.takeWhile (·.kind != .eof) = p ++ rest →
        (∀ t ∈ rest.head?, t.kind.isBinaryOperator = false) → e.Canonical → e.Spells p →
        e.nesting ≤ maxNesting → e.countedHeight ≤ maxHeight → e.height ≤ maxHeight) ∧
    ((∀ ts e, parse ts = .ok e → e.height ≤ b) ↔ 495488 ≤ b) := by
  constructor
  · constructor
    · intro h p rest e hb hs hc hsp hn hch
      have hf : e.FitsAt 0 0 := (fitsAt_iff e (Nat.zero_le _) (Nat.zero_le _)).2 (by omega)
      exact h e ((parse_of_phrase hb ⟨Nat.zero_le _, hc, hsp⟩ (stops_zero_iff.2 hs)).1 hf)
    · intro h e hok
      obtain ⟨p, rest, hb, hp, hf, hs⟩ := exists_phrase_of_parse hok
      have := (fitsAt_iff e (Nat.zero_le _) (Nat.zero_le _)).1 hf
      exact h p rest e hb (stops_zero_iff.1 hs) hp.canonical hp.spells (by omega) (by omega)
  · constructor
    · intro h
      obtain ⟨ts, e, hok, hh⟩ := exists_parse_height_eq
      exact hh ▸ h ts e hok
    · intro hb ts e hok
      exact (height_le_of_parse hok).trans hb

/-- **A tree that is too tall**, from `-1 + 1 + … + 1` with `maxHeight` additions. -/
theorem exists_parse_height_gt : ∃ e, parse (negatedSum maxHeight) = .ok e ∧ maxHeight < e.height := by
  obtain ⟨e, hok, hh⟩ := parse_negatedSum (Nat.le_refl maxHeight)
  exact ⟨e, hok, by omega⟩

end LoxCalc
