import LoxCalc.Proofs.Expr.Printed

/-!
# LoxCalc.Proofs.Expr.RoundTrip — printing and compiling the tree of a text

* `wellFormed_of_compile`: the trees that texts are compiled to have operators with their own texts, strings without
  quotes and numbers without signs.
* `ungrouped_printed`: if the numbers are finite, the printed tree differs from the tree by groupings only.
* `operators_lt_printed`: if one is not, it has more operators, since infinity is printed as a quotient.
* `Expr.roundTrips_of_finite`, `Expr.roundTrips_of_not_fits`, `Expr.not_roundTrips`: so compiling the printed form of
  such a tree gives the tree back, groupings and lines apart, or complains about nesting, iff its numbers are finite or
  the printed tree does not fit the limits.
-/

namespace LoxCalc

open Segment

/-! ## Trees of scanned tokens -/

namespace Expr

/-- All numbers of the tree have a property. -/
def NumbersIn (P : Binary64 → Prop) : Expr → Prop
  | literal (.number x) => P x
  | literal _ => True
  | grouping e => e.NumbersIn P
  | unary _ e => e.NumbersIn P
  | binary l _ r => l.NumbersIn P ∧ r.NumbersIn P

theorem NumbersIn.imp {P Q : Binary64 → Prop} (hpq : ∀ x, P x → Q x) {e : Expr} (h : e.NumbersIn P) :
    e.NumbersIn Q := by
  induction e with
  | literal v =>
    cases v with
    | number x => exact hpq x h
    | _ => trivial
  | grouping e ih => exact ih h
  | unary op e ih => exact ih h
  | binary l op r ihl ihr => exact ⟨ihl h.1, ihr h.2⟩

theorem NumbersIn.and {P Q : Binary64 → Prop} {e : Expr} (h : e.NumbersIn P) (h' : e.NumbersIn Q) :
    e.NumbersIn (fun x => P x ∧ Q x) := by
  induction e with
  | literal v =>
    cases v with
    | number x => exact ⟨h, h'⟩
    | _ => trivial
  | grouping e ih => exact ih h h'
  | unary op e ih => exact ih h h'
  | binary l op r ihl ihr => exact ⟨ihl h.1 h'.1, ihr h.2 h'.2⟩

end Expr

theorem Segment.Form.str_literal {kind : TokenKind} {s : String} {text : List Char}
    (h : Form (.token kind (some (.str s))) text) : '"' ∉ s.toList := by
  cases h with
  | string hb =>
    rw [String.toList_ofList]
    exact hb

theorem Segment.Form.number_literal {kind : TokenKind} {x : Binary64} {text : List Char}
    (h : Form (.token kind (some (.number x))) text) : ∃ m, x = .signed false m := by
  cases h with
  | integer _ _ => exact ⟨_, rfl⟩
  | decimal _ _ _ _ => exact ⟨_, rfl⟩

/-- No reserved word is an operator. -/
theorem keyword_not_operator {word : String} {kind : TokenKind} (h : TokenKind.keyword? word = some kind) :
    kind.isPrefixOperator = false ∧ kind.isBinaryOperator = false := by
  have hall : ∀ p ∈ TokenKind.reservedWords, p.2.isPrefixOperator = false ∧ p.2.isBinaryOperator = false := by
    decide
  obtain ⟨l₁, l₂, hl, -⟩ := List.lookup_eq_some_iff.1 h
  exact hall (word, kind) (by rw [hl]; simp)

/-- Operators have fixed texts and no values. -/
theorem Segment.Form.mem_fixedTexts {kind : TokenKind} {literal : Option Literal} {text : List Char}
    (h : Form (.token kind literal) text) (hk : kind.isPrefixOperator = true ∨ kind.isBinaryOperator = true) :
    (text, kind) ∈ fixedTexts ∧ literal = none := by
  have hno : ∀ k : TokenKind, k ∈ [.number, .string, .identifier] →
      ¬ (k.isPrefixOperator = true ∨ k.isBinaryOperator = true) := by decide
  cases h with
  | fixed h => exact ⟨h, rfl⟩
  | reserved _ _ hword =>
    have := keyword_not_operator hword
    simp [this.1, this.2] at hk
  | _ => exact absurd hk (hno _ (by simp))

/-- A literal token of the grammar has a value without quotes or signs. -/
theorem literal_of_form {t : Token} {v : Value} (hv : t.value? = some v)
    (h : Form (.token t.kind t.literal) t.lexeme.toList) :
    (Expr.literal v).WellFormed ∧ (Expr.literal v).NumbersIn (fun x => ∃ m, x = .signed false m) := by
  have hlit (hkind : t.literal.map Reader.literalOf = some v) :
      (Expr.literal v).WellFormed ∧ (Expr.literal v).NumbersIn (fun x => ∃ m, x = .signed false m) := by
    obtain ⟨l, hl, rfl⟩ := Option.map_eq_some_iff.1 hkind
    rw [hl] at h
    cases l with
    | number x => exact ⟨trivial, h.number_literal⟩
    | str s => exact ⟨h.str_literal, trivial⟩
  unfold Token.value? at hv
  split at hv
  · obtain rfl := Option.some.inj hv
    exact ⟨trivial, trivial⟩
  · obtain rfl := Option.some.inj hv
    exact ⟨trivial, trivial⟩
  · obtain rfl := Option.some.inj hv
    exact ⟨trivial, trivial⟩
  · exact hlit hv
  · exact hlit hv
  · simp at hv

/-- **A canonical tree of tokens of the grammar** is well formed and has no signs on its numbers. -/
theorem Expr.Spells.wellFormed {e : Expr} {p : List Token} (h : e.Spells p) (hc : e.Canonical)
    (hp : ∀ t ∈ p, Form (.token t.kind t.literal) t.lexeme.toList) :
    e.WellFormed ∧ e.NumbersIn (fun x => ∃ m, x = .signed false m) := by
  induction h with
  | literal hv => exact literal_of_form hv (hp _ (by simp))
  | grouping _ _ _ ih => exact ih hc (fun t ht => hp t (by simp [ht]))
  | unary _ ih =>
    obtain ⟨hop, -, hce⟩ := hc
    obtain ⟨hw, hn⟩ := ih hce (fun t ht => hp t (by simp [ht]))
    exact ⟨⟨hop, (hp _ (by simp)).mem_fixedTexts (.inl hop), hw⟩, hn⟩
  | binary _ _ ihl ihr =>
    obtain ⟨m, hm, -, -, hcl, hcr⟩ := hc
    have hop := Option.isSome_of_eq_some hm
    obtain ⟨hwl, hnl⟩ := ihl hcl (fun t ht => hp t (by simp [ht]))
    obtain ⟨hwr, hnr⟩ := ihr hcr (fun t ht => hp t (by simp [ht]))
    exact ⟨⟨hop, (hp _ (by simp)).mem_fixedTexts (.inr hop), hwl, hwr⟩, hnl, hnr⟩

/-- **The tree of a text** is well formed and has no signs on its numbers. -/
theorem wellFormed_of_compile {source : String} {e : Expr} (h : compile source = .ok e) :
    e.WellFormed ∧ e.NumbersIn (fun x => ∃ m, x = .signed false m) := by
  obtain ⟨p, rest, hb, hp, -, -⟩ := exists_phrase_of_parse (compile_eq_ok_iff.1 h).1
  refine hp.spells.wellFormed hp.canonical ?_
  intro t ht
  have hmem : t ∈ (scan source).tokens.takeWhile (·.kind != .eof) := by
    rw [hb]
    exact List.mem_append_left _ ht
  exact form_of_mem_tokens (List.takeWhile_subset _ hmem) (hp.spells.kind_ne_eof hp.canonical t ht)

/-! ## The printed tree and the tree -/

namespace Expr

theorem ungrouped_enclosed (b : Bool) (e : Expr) : (enclosed b e).ungrouped = e.ungrouped := by
  cases b <;> rfl

/-- **Printed trees of finite numbers** differ from the trees by groupings only. -/
theorem ungrouped_printed {e : Expr} (h : e.NumbersIn (fun x => (∃ m, x = .signed false m) ∧ x.isFinite = true)) :
    e.printed.ungrouped = e.ungrouped := by
  induction e with
  | literal v =>
    cases v with
    | number x =>
      obtain ⟨⟨m, rfl⟩, hm⟩ := h
      have hinf : m.isInfinite = false := by simpa [Binary64.isFinite] using hm
      simp [printed, Value.printed, Binary64.printed, hinf]
    | _ => rfl
  | grouping e ih => exact ih h
  | unary op e ih => rw [printed, ungrouped, ungrouped_enclosed, ih h, ungrouped]
  | binary l op r ihl ihr =>
    rw [printed, ungrouped, ungrouped_enclosed, ungrouped_enclosed, ihl h.1, ihr h.2, ungrouped]

/-- How many operators a tree has. -/
def operators : Expr → Nat
  | literal _ => 0
  | grouping e => e.operators
  | unary _ e => e.operators + 1
  | binary l _ r => l.operators + r.operators + 1

theorem operators_ungrouped (e : Expr) : e.ungrouped.operators = e.operators := by
  induction e with
  | literal v => rfl
  | grouping e ih => exact ih
  | unary op e ih => rw [ungrouped, operators, ih, operators]
  | binary l op r ihl ihr => rw [ungrouped, operators, ihl, ihr, operators]

theorem operators_unplaced (e : Expr) : e.unplaced.operators = e.operators := by
  induction e with
  | literal v => rfl
  | grouping e ih => exact ih
  | unary op e ih => rw [unplaced, operators, ih, operators]
  | binary l op r ihl ihr => rw [unplaced, operators, ihl, ihr, operators]

theorem operators_enclosed (b : Bool) (e : Expr) : (enclosed b e).operators = e.operators := by
  cases b <;> rfl

theorem operators_le_printed (e : Expr) : e.operators ≤ e.printed.operators := by
  induction e with
  | literal v => exact Nat.zero_le _
  | grouping e ih => exact ih
  | unary op e ih =>
    rw [printed, operators, operators, operators_enclosed]
    omega
  | binary l op r ihl ihr =>
    rw [printed, operators, operators, operators_enclosed, operators_enclosed]
    omega

/-- **A number that is not finite** is printed with an operator. -/
theorem operators_lt_printed {e : Expr} (h : ¬ e.NumbersIn (fun x => x.isFinite = true)) :
    e.operators < e.printed.operators := by
  induction e with
  | literal v =>
    cases v with
    | number x =>
      rcases x with _ | ⟨negative, m⟩
      · exact Nat.zero_lt_succ _
      · have hinf : m.isInfinite = true := by simpa [NumbersIn, Binary64.isFinite] using h
        rw [printed, Value.printed, Binary64.printed, if_pos hinf]
        cases negative <;> exact Nat.zero_lt_succ _
    | _ => exact absurd trivial h
  | grouping e ih => exact ih h
  | unary op e ih =>
    have := ih h
    rw [printed, operators, operators, operators_enclosed]
    omega
  | binary l op r ihl ihr =>
    have hl := operators_le_printed l
    have hr := operators_le_printed r
    rw [printed, operators, operators, operators_enclosed, operators_enclosed]
    rcases not_and_or.1 h with h | h
    · have := ihl h
      omega
    · have := ihr h
      omega

/-! ## Round trips -/

/-- Compiling the printed form gives the tree back, groupings and lines apart, or only complains about nesting. -/
def RoundTrips (e : Expr) : Prop :=
  RefusedForNesting (compile e.source) ∨
    ∃ e', compile e.source = .ok e' ∧ e'.ungrouped.unplaced = e.ungrouped.unplaced

theorem roundTrips_of_not_fits {e : Expr} (h : e.WellFormed) (hf : ¬ e.printed.FitsAt 0 0) : e.RoundTrips :=
  .inl ((compile_source h).2 hf)

theorem roundTrips_of_finite {e : Expr} (h : e.WellFormed) (hn : e.NumbersIn (fun x => ∃ m, x = .signed false m))
    (hfin : e.NumbersIn (fun x => x.isFinite = true)) : e.RoundTrips := by
  by_cases hf : e.printed.FitsAt 0 0
  · obtain ⟨e', hok, he'⟩ := (compile_source h).1 hf
    refine .inr ⟨e', hok, ?_⟩
    rw [ungrouped_unplaced_eq he', ungrouped_printed (hn.and hfin)]
  · exact roundTrips_of_not_fits h hf

theorem not_roundTrips {e : Expr} (h : e.WellFormed) (hf : e.printed.FitsAt 0 0)
    (hfin : ¬ e.NumbersIn (fun x => x.isFinite = true)) : ¬ e.RoundTrips := by
  obtain ⟨e', hok, he'⟩ := (compile_source h).1 hf
  rintro (hrefused | ⟨e'', hok', he''⟩)
  · rw [hok] at hrefused
    exact not_refusedForNesting_ok e' hrefused
  · obtain rfl : e' = e'' := by
      rw [hok] at hok'
      cases hok'
      rfl
    -- as many operators as the tree and as the printed tree
    have hcount : e.operators = e.printed.operators := by
      have h1 : e'.operators = e.printed.operators := by
        rw [← operators_unplaced e', he', operators_unplaced]
      have h2 : e'.operators = e.operators := by
        rw [← operators_ungrouped e', ← operators_unplaced e'.ungrouped, he'', operators_unplaced, operators_ungrouped]
      rw [← h1, h2]
    exact absurd hcount (Nat.ne_of_lt (operators_lt_printed hfin))

end Expr

/-- A text that writes a value is compiled to it. -/
theorem compile_literal {source : String} {v : Value} (h : (Expr.literal v).WrittenAs source.toList) :
    compile source = .ok (.literal v) := by
  obtain ⟨e', hok, he'⟩ := (compile_of_writtenAs h trivial).1 trivial
  cases e' with
  | literal w => rw [hok, show w = v by simpa [Expr.unplaced] using he']
  | _ => simp [Expr.unplaced] at he'

theorem compile_tenToThe {n : Nat} (hn : 1024 ≤ n) :
    compile (String.ofList (tenToThe n)) = .ok (.literal (.number (.signed false .infinity))) := by
  refine compile_literal (writtenAs_number ?_)
  rw [String.toList_ofList, ← ofNumeral_tenToThe hn]
  exact .integer (by simp [tenToThe]) (fun _ => isDigit_of_mem_tenToThe)

/-- **When the tree of a text round-trips**: iff its numbers are finite or its printed tree is refused for nesting.
In each case the printed form is compiled to the printed tree or refused. -/
theorem roundTrips_iff_of_compile {source : String} {e : Expr} (h : compile source = .ok e) :
    (e.RoundTrips ↔ e.NumbersIn (fun x => x.isFinite = true) ∨ ¬ e.printed.FitsAt 0 0) ∧
    (e.printed.FitsAt 0 0 → ∃ e', compile e.source = .ok e' ∧ e'.unplaced = e.printed.unplaced) ∧
    (¬ e.printed.FitsAt 0 0 → RefusedForNesting (compile e.source)) := by
  obtain ⟨hwf, hsigns⟩ := wellFormed_of_compile h
  refine ⟨⟨?_, ?_⟩, compile_source hwf⟩
  · intro hr
    by_contra hno
    obtain ⟨hfin, hfits⟩ := not_or.1 hno
    exact Expr.not_roundTrips hwf (not_not.1 hfits) hfin hr
  · rintro (hfin | hfits)
    · exact Expr.roundTrips_of_finite hwf hsigns hfin
    · exact Expr.roundTrips_of_not_fits hwf hfits

/-- The tree of `-1.5 / 2 == nil`. -/
def comparedQuotient : Expr :=
  .binary
    (.binary (.unary ⟨.minus, "-", none, 1⟩ (.literal (.number (.signed false ⟨0x3FF8000000000000, by decide⟩))))
      ⟨.slash, "/", none, 1⟩ (.literal (.number (.signed false ⟨0x4000000000000000, by decide⟩))))
    ⟨.equalEqual, "==", none, 1⟩ (.literal .nil)

theorem roundTrips_comparedQuotient :
    compile "-1.5 / 2 == nil" = .ok comparedQuotient ∧ comparedQuotient.RoundTrips := by
  have hok : compile "-1.5 / 2 == nil" = .ok comparedQuotient := by decide +kernel
  have hfin : comparedQuotient.NumbersIn (fun x => x.isFinite = true) := ⟨⟨rfl, rfl⟩, trivial⟩
  exact ⟨hok, (roundTrips_iff_of_compile hok).1.2 (.inl hfin)⟩

/-- **A tree that does not round-trip**: a numeral too large for a finite number is printed as a quotient. -/
theorem not_roundTrips_tenToThe :
    compile (String.ofList (tenToThe 1024)) = .ok (.literal (.number (.signed false .infinity))) ∧
      ¬ (Expr.literal (.number (.signed false .infinity))).RoundTrips := by
  refine ⟨compile_tenToThe (Nat.le_refl _), ?_⟩
  refine Expr.not_roundTrips trivial (Binary64.printed_fitsAt (.signed false .infinity)) ?_
  intro hfin
  cases hfin

end LoxCalc
