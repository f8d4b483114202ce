import LoxCalc.Proofs.Decimal.Exponents
import LoxCalc.Proofs.Expr.RoundTrip
import LoxCalc.Proofs.Json.Written
import LoxCalc.Proofs.Token.Listing

/-!
# LoxCalc.Proofs.Expr.Dump — dumps in JSON lose nothing but what is not finite

A dump is a JSON value whose numbers are JSON numbers (`hasNumerals_toJson`), so it reads back from its text, with
indentation or without.  A node of a tree is an object with the name of its case as the only key, and no two cases have
one name; the kinds of tokens and their lines are told apart by their texts, and finite numbers by their spellings.  So
two trees, and two lists of tokens, have the same dump only if they are equal, if their numbers are finite
(`dump_lossless`).
-/

namespace LoxCalc

theorem tagged_inj {name name' : String} {data data' : Json String} (h : tagged name data = tagged name' data') :
    name = name' ∧ data = data' := by
  simpa [tagged] using h

/-! ## Numbers are spelled as numbers -/

section Numerals

open Json

theorem hasNumerals_tagged {name : String} {data : Json String} :
    (tagged name data).HasNumerals ↔ data.HasNumerals := by
  rw [tagged, HasNumerals, MembersHaveNumerals, MembersHaveNumerals, and_true]

theorem Binary64.hasNumerals_toJson (x : Binary64) : x.toJson.HasNumerals := by
  obtain _ | ⟨s, m⟩ := x
  · trivial
  · cases hm : m.isInfinite with
    | true =>
      rw [toJson, if_pos hm]
      trivial
    | false =>
      rw [toJson_signed hm, HasNumerals]
      cases s with
      | false => exact isNumber_jsonSpelling m (by decide : [] ∈ [[], ['-']])
      | true => exact isNumber_jsonSpelling m (by decide : ['-'] ∈ [[], ['-']])

theorem Literal.hasNumerals_toJson (l : Literal) : l.toJson.HasNumerals := by
  cases l with
  | number x => exact hasNumerals_tagged.2 x.hasNumerals_toJson
  | str s => exact hasNumerals_tagged.2 trivial

theorem isNumber_toDigits (n : Nat) : IsNumber (Nat.toDigits 10 n) := by
  have hwhole : IsWhole (Nat.toDigits 10 n) := by
    refine isWhole_of_digits Nat.toDigits_ne_nil (fun _ => isDigit_of_mem_toDigits) ?_
    rcases Nat.eq_zero_or_pos n with rfl | hn
    · exact .inl rfl
    · exact .inr (head_toDigits_ne_zero (by decide) hn)
  have hnumber := IsNumber.mk (by decide : [] ∈ [[], ['-']]) hwhole .none .none
  rwa [List.append_nil, List.append_nil] at hnumber

theorem Token.hasNumerals_toJson (t : Token) : t.toJson.HasNumerals := by
  obtain ⟨kind, lexeme, literal, line⟩ := t
  cases literal with
  | none => exact ⟨trivial, trivial, trivial, isNumber_toDigits line, trivial⟩
  | some l => exact ⟨trivial, trivial, l.hasNumerals_toJson, isNumber_toDigits line, trivial⟩

theorem Value.hasNumerals_toJson (v : Value) : v.toJson.HasNumerals := by
  cases v with
  | nil => trivial
  | bool b => exact hasNumerals_tagged.2 trivial
  | number x => exact hasNumerals_tagged.2 x.hasNumerals_toJson
  | str s => exact hasNumerals_tagged.2 trivial

theorem Expr.hasNumerals_toJson (e : Expr) : e.toJson.HasNumerals := by
  induction e with
  | literal v => exact hasNumerals_tagged.2 v.hasNumerals_toJson
  | grouping e ih => exact hasNumerals_tagged.2 ih
  | unary op e ih => exact hasNumerals_tagged.2 ⟨op.hasNumerals_toJson, ih, trivial⟩
  | binary l op r ihl ihr => exact hasNumerals_tagged.2 ⟨ihl, op.hasNumerals_toJson, ihr, trivial⟩

theorem hasNumerals_tokensJson (ts : List Token) : (tokensJson ts).HasNumerals := by
  have hitems : ItemsHaveNumerals (ts.map Token.toJson) := by
    induction ts with
    | nil => trivial
    | cons t ts ih => exact ⟨t.hasNumerals_toJson, ih⟩
  exact hitems

end Numerals

/-! ## No two dumps are equal -/

/-- Not an infinity or not-a-number. -/
def Literal.isFinite : Literal → Bool
  | number x => x.isFinite
  | str _ => true

/-- The number of the token is finite if it carries one. -/
def Token.HasFiniteNumber (t : Token) : Prop := ∀ l ∈ t.literal, l.isFinite = true

instance (t : Token) : Decidable t.HasFiniteNumber :=
  inferInstanceAs (Decidable (∀ l ∈ t.literal, l.isFinite = true))

/-- All numbers of the tree are finite, those that its operator tokens carry included. -/
def Expr.HasFiniteNumbers (e : Expr) : Prop :=
  e.NumbersIn (·.isFinite = true) ∧ e.OperatorsIn Token.HasFiniteNumber Token.HasFiniteNumber

theorem Literal.toJson_inj {l l' : Literal} (hl : l.isFinite = true) (hl' : l'.isFinite = true)
    (h : l.toJson = l'.toJson) : l = l' := by
  cases l with
  | number x =>
    cases l' with
    | number y => rw [Binary64.toJson_inj hl hl' (tagged_inj h).2]
    | str s => exact absurd (tagged_inj h).1 (by decide)
  | str s =>
    cases l' with
    | number y => exact absurd (tagged_inj h).1 (by decide)
    | str t => rw [Json.string.inj (tagged_inj h).2]

/-- A literal is not dumped as if there were none. -/
theorem Literal.toJson_ne_null (l : Literal) : l.toJson ≠ .null := by
  cases l <;> rintro ⟨⟩

theorem Token.toJson_inj {t t' : Token} (ht : t.HasFiniteNumber) (ht' : t'.HasFiniteNumber)
    (h : t.toJson = t'.toJson) : t = t' := by
  obtain ⟨kind, lexeme, literal, line⟩ := t
  obtain ⟨kind', lexeme', literal', line'⟩ := t'
  simp only [toJson, Json.object.injEq, List.cons.injEq, Prod.mk.injEq, Json.string.injEq, Json.number.injEq, true_and,
    and_true] at h
  obtain ⟨hkind, rfl, hliteral, hline⟩ := h
  obtain rfl := TokenKind.name_injective hkind
  obtain rfl := toDigits_inj (by decide) (by decide) hline
  have hsame : literal = literal' := by
    cases literal with
    | none =>
      cases literal' with
      | none => rfl
      | some l' => exact absurd hliteral.symm l'.toJson_ne_null
    | some l =>
      cases literal' with
      | none => exact absurd hliteral l.toJson_ne_null
      | some l' => rw [Literal.toJson_inj (ht l rfl) (ht' l' rfl) hliteral]
  rw [hsame]

theorem tokensJson_inj {ts ts' : List Token} (hts : ∀ t ∈ ts, t.HasFiniteNumber) (hts' : ∀ t ∈ ts', t.HasFiniteNumber)
    (h : tokensJson ts = tokensJson ts') : ts = ts' := by
  have hmap : ts.map Token.toJson = ts'.map Token.toJson := Json.array.inj h
  clear h
  induction ts generalizing ts' with
  | nil => exact (List.map_eq_nil_iff.1 hmap.symm).symm
  | cons t ts ih =>
    obtain ⟨t', ts', rfl, hhead, hmore⟩ := List.map_eq_cons_iff.1 hmap.symm
    obtain ⟨ht, hts⟩ := List.forall_mem_cons.1 hts
    obtain ⟨ht', hts'⟩ := List.forall_mem_cons.1 hts'
    rw [Token.toJson_inj ht ht' hhead.symm, ih hts hts' hmore.symm]

theorem Value.toJson_inj {v w : Value} (hv : ∀ x, v = .number x → x.isFinite = true)
    (hw : ∀ x, w = .number x → x.isFinite = true) (h : v.toJson = w.toJson) : v = w := by
  cases v with
  | nil =>
    cases w with
    | nil => rfl
    | bool _ | number _ | str _ => cases h
  | bool b =>
    cases w with
    | bool c => rw [Json.bool.inj (tagged_inj h).2]
    | nil => cases h
    | number _ | str _ => exact absurd (tagged_inj h).1 (by decide)
  | number x =>
    cases w with
    | number y => rw [Binary64.toJson_inj (hv x rfl) (hw y rfl) (tagged_inj h).2]
    | nil => cases h
    | bool _ | str _ => exact absurd (tagged_inj h).1 (by decide)
  | str s =>
    cases w with
    | str t => rw [Json.string.inj (tagged_inj h).2]
    | nil => cases h
    | bool _ | number _ => exact absurd (tagged_inj h).1 (by decide)

namespace Expr

theorem isFinite_of_numbersIn {v : Value} (h : (literal v).NumbersIn (·.isFinite = true)) :
    ∀ x, v = .number x → x.isFinite = true := by
  rintro x rfl
  exact h

/-- **Trees that are dumped alike are equal**, if their numbers are finite. -/
theorem toJson_inj {e e' : Expr} (he : e.HasFiniteNumbers) (he' : e'.HasFiniteNumbers)
    (h : e.toJson = e'.toJson) : e = e' := by
  induction e generalizing e' with
  | literal v =>
    cases e' with
    | literal w => rw [Value.toJson_inj (isFinite_of_numbersIn he.1) (isFinite_of_numbersIn he'.1) (tagged_inj h).2]
    | _ => exact absurd (tagged_inj h).1 (by decide)
  | grouping e ih =>
    cases e' with
    | grouping e' => rw [@ih e' he he' (tagged_inj h).2]
    | _ => exact absurd (tagged_inj h).1 (by decide)
  | unary op e ih =>
    cases e' with
    | unary op' e' =>
      have hfields := (tagged_inj h).2
      simp only [Json.object.injEq, List.cons.injEq, Prod.mk.injEq, true_and, and_true] at hfields
      obtain ⟨hop, hright⟩ := hfields
      rw [Token.toJson_inj he.2.1 he'.2.1 hop, @ih e' ⟨he.1, he.2.2⟩ ⟨he'.1, he'.2.2⟩ hright]
    | _ => exact absurd (tagged_inj h).1 (by decide)
  | binary l op r ihl ihr =>
    cases e' with
    | binary l' op' r' =>
      have hfields := (tagged_inj h).2
      simp only [Json.object.injEq, List.cons.injEq, Prod.mk.injEq, true_and, and_true] at hfields
      obtain ⟨hleft, hop, hright⟩ := hfields
      rw [@ihl l' ⟨he.1.1, he.2.2.1⟩ ⟨he'.1.1, he'.2.2.1⟩ hleft, Token.toJson_inj he.2.1 he'.2.1 hop,
        @ihr r' ⟨he.1.2, he.2.2.2⟩ ⟨he'.1.2, he'.2.2.2⟩ hright]
    | _ => exact absurd (tagged_inj h).1 (by decide)

end Expr

/-- **Dumps lose nothing.**  Trees with finite numbers, those of their operator tokens included, have the same dump, on
one line or with indentation, only if they are equal in everything, the signs of zeros and the lines of tokens included;
so do lists of tokens. -/
theorem dump_lossless :
    (∀ e e' : Expr, e.HasFiniteNumbers → e'.HasFiniteNumbers →
      (e.toJson.compact = e'.toJson.compact → e = e') ∧ (e.toJson.pretty = e'.toJson.pretty → e = e')) ∧
    ∀ ts ts' : List Token, (∀ t ∈ ts, t.HasFiniteNumber) → (∀ t ∈ ts', t.HasFiniteNumber) →
      ((tokensJson ts).compact = (tokensJson ts').compact → ts = ts') ∧
        ((tokensJson ts).pretty = (tokensJson ts').pretty → ts = ts') := by
  refine ⟨fun e e' he he' => ⟨fun h => ?_, fun h => ?_⟩, fun ts ts' hts hts' => ⟨fun h => ?_, fun h => ?_⟩⟩
  · exact e.toJson_inj he he' (Json.compact_inj e.hasNumerals_toJson e'.hasNumerals_toJson h)
  · exact e.toJson_inj he he' (Json.pretty_inj e.hasNumerals_toJson e'.hasNumerals_toJson h)
  · exact tokensJson_inj hts hts' (Json.compact_inj (hasNumerals_tokensJson ts) (hasNumerals_tokensJson ts') h)
  · exact tokensJson_inj hts hts' (Json.pretty_inj (hasNumerals_tokensJson ts) (hasNumerals_tokensJson ts') h)

/-- A zero with a sign or without, in a literal and in the token of an operator. -/
def signedZeros (negative : Bool) : Expr :=
  .binary (.literal (.number (.signed negative .zero))) ⟨.slash, "/", some (.number (.signed negative .zero)), 1⟩
    (.literal (.str "Nil"))

/-- **The sign of zero is kept**, and blanks between tokens are not dumped. -/
theorem dump_lossless_zeros :
    (signedZeros true).HasFiniteNumbers ∧ (signedZeros false).HasFiniteNumbers ∧
    (signedZeros true).toJson.compact ≠ (signedZeros false).toJson.compact ∧
    (tokensJson (scan "1+2.5").tokens).compact = (tokensJson (scan "1 + 2.5").tokens).compact ∧
    (scan "1+2.5").tokens = (scan "1 + 2.5").tokens := by
  have hzeros (negative : Bool) : (signedZeros negative).HasFiniteNumbers := by
    refine ⟨⟨rfl, trivial⟩, ?_, trivial, trivial⟩
    rintro l ⟨⟩
    rfl
  have hfinite : ∀ t ∈ (scan "1+2.5").tokens, t.HasFiniteNumber := by decide +kernel
  have hfinite' : ∀ t ∈ (scan "1 + 2.5").tokens, t.HasFiniteNumber := by decide +kernel
  have hdump : (tokensJson (scan "1+2.5").tokens).compact = (tokensJson (scan "1 + 2.5").tokens).compact := by
    decide +kernel
  refine ⟨hzeros true, hzeros false, fun h => ?_, hdump, (dump_lossless.2 _ _ hfinite hfinite').1 hdump⟩
  exact absurd ((dump_lossless.1 _ _ (hzeros true) (hzeros false)).1 h) (by decide)

end LoxCalc
