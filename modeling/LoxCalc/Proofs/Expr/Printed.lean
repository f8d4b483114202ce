import LoxCalc.Expr.Printer
import LoxCalc.Program
import LoxCalc.Proofs.Decimal.ReadBack
import LoxCalc.Proofs.Expr.Lines
import LoxCalc.Proofs.Expr.Parsing
import LoxCalc.Proofs.Token.Written

/-!
# LoxCalc.Proofs.Expr.Printed — what the printed form of a tree is read as

`e.printed` is the tree that the text `e.source` stands for: every operand with operators of its own is grouped, and
a number that no numeral stands for is an expression.  For the trees whose texts can be scanned (`WellFormed`) the text
writes the tokens of that tree (`Expr.WellFormed.writtenAs_source`), so that compiling it gives `e.printed`, lines
apart, if that tree fits the limits, and one complaint about nesting if not (`compile_source`).
-/

namespace LoxCalc

open Segment

/-! ## Printed trees -/

section Printed

/-- A numeral of one digit as a tree. -/
def Expr.digit (c : Char) : Expr := .literal (.number (.ofNumeral [c] []))

def Token.minusSign : Token := ⟨.minus, "-", none, 0⟩

def Token.slashSign : Token := ⟨.slash, "/", none, 0⟩

/-- The tree that a printed number stands for. -/
def Binary64.printed : Binary64 → Expr
  | .nan => .grouping (.binary (.digit '0') .slashSign (.digit '0'))
  | .signed negative m =>
    if m.isInfinite then
      if negative then .grouping (.binary (.unary .minusSign (.digit '1')) .slashSign (.digit '0'))
      else .grouping (.binary (.digit '1') .slashSign (.digit '0'))
    else if negative then .grouping (.unary .minusSign (.literal (.number (.signed false m))))
    else .literal (.number (.signed false m))

def Value.printed : Value → Expr
  | .number x => x.printed
  | v => .literal v

namespace Expr

/-- A tree in a grouping if asked for. -/
def enclosed (wanted : Bool) (e : Expr) : Expr := if wanted then grouping e else e

/-- The tree that the printed form of a tree stands for. -/
def printed : Expr → Expr
  | literal v => v.printed
  | grouping e => grouping e.printed
  | unary op e => unary op (enclosed e.isCompound e.printed)
  | binary l op r => binary (enclosed l.isCompound l.printed) op (enclosed r.isCompound r.printed)

/-- Operators are the tokens that their texts are scanned to, and no string holds a quote. -/
def WellFormed : Expr → Prop
  | literal (.str s) => '"' ∉ s.toList
  | literal _ => True
  | grouping e => e.WellFormed
  | unary op e => op.kind.isPrefixOperator = true ∧ IsFixed op ∧ e.WellFormed
  | binary l op r => op.kind.isBinaryOperator = true ∧ IsFixed op ∧ l.WellFormed ∧ r.WellFormed

end Expr

end Printed

/-! ## Printed trees are canonical -/

section Canonical

open LoxCalc.Expr

theorem Binary64.printed_rank (x : Binary64) : x.printed.rank = 5 := by
  rcases x with _ | ⟨negative, m⟩
  · rfl
  · rw [Binary64.printed]
    repeat' split
    all_goals rfl

/-- A quotient by zero of an operand that binds tighter is canonical. -/
theorem canonical_quotient {e : Expr} (hc : e.Canonical) (hr : 4 ≤ e.rank) :
    (binary e .slashSign (digit '0')).Canonical := by
  refine ⟨3, rfl, ?_, ?_, hc, trivial⟩
  · omega
  · show 3 < 5
    omega

theorem Binary64.printed_canonical (x : Binary64) : x.printed.Canonical := by
  have hdigit (c : Char) : 4 ≤ (digit c).rank := Nat.le_succ 4
  rcases x with _ | ⟨negative, m⟩
  · exact canonical_quotient trivial (hdigit '0')
  · rw [Binary64.printed]
    split
    · split
      · exact canonical_quotient ⟨rfl, hdigit '1', trivial⟩ (Nat.le_refl 4)
      · exact canonical_quotient trivial (hdigit '1')
    · split
      · exact ⟨rfl, Nat.le_succ 4, trivial⟩
      · trivial

/-- A printed number keeps the limits. -/
theorem Binary64.printed_fitsAt (x : Binary64) : x.printed.FitsAt 0 0 := by
  have hrank : Token.slashSign.kind.binaryRank?.getD 0 = 3 := rfl
  rcases x with _ | ⟨negative, m⟩
  · simp [Binary64.printed, digit, FitsAt, chainLength, maxNesting, maxHeight, rank, hrank]
  · rw [Binary64.printed]
    repeat' split
    all_goals simp [digit, FitsAt, chainLength, maxNesting, maxHeight, rank, hrank]

theorem Value.printed_rank (v : Value) : v.printed.rank = 5 := by
  cases v with
  | number x => exact x.printed_rank
  | _ => rfl

theorem Value.printed_canonical (v : Value) : v.printed.Canonical := by
  cases v with
  | number x => exact x.printed_canonical
  | _ => trivial

/-- An operand of a printed tree stands by itself. -/
theorem Expr.enclosed_rank (e : Expr) : (enclosed e.isCompound e.printed).rank = 5 := by
  cases e with
  | literal v => exact v.printed_rank
  | _ => rfl

theorem Expr.enclosed_canonical {e : Expr} (b : Bool) (h : e.Canonical) : (enclosed b e).Canonical := by
  cases b <;> exact h

theorem Expr.WellFormed.printed_canonical {e : Expr} (h : e.WellFormed) : e.printed.Canonical := by
  induction e with
  | literal v => exact v.printed_canonical
  | grouping e ih => exact ih h
  | unary op e ih =>
    refine ⟨h.1, ?_, enclosed_canonical _ (ih h.2.2)⟩
    rw [enclosed_rank]
    omega
  | binary l op r ihl ihr =>
    obtain ⟨hop, -, hl, hr⟩ := h
    obtain ⟨m, hm⟩ := Option.isSome_iff_exists.1 hop
    have := TokenKind.binaryRank?_lt hm
    refine ⟨m, hm, ?_, ?_, enclosed_canonical _ (ihl hl), enclosed_canonical _ (ihr hr)⟩
    · rw [enclosed_rank]
      omega
    · rw [enclosed_rank]
      omega

end Canonical

/-! ## The text of a tree writes the tokens of the printed tree -/

section Writes

open LoxCalc.Expr

variable {e : Expr} {text : List Char}

/-- The text writes tokens of the tree. -/
def Expr.WrittenAs (e : Expr) (text : List Char) : Prop := ∃ p, e.Spells p ∧ Writes text p

theorem Expr.WrittenAs.parenthesised (h : e.WrittenAs text) : (grouping e).WrittenAs ('(' :: (text ++ [')'])) := by
  obtain ⟨p, hs, hw⟩ := h
  exact ⟨_, .grouping rfl rfl hs, hw.parenthesised⟩

theorem Expr.WrittenAs.prefixed {op : Token} (h : e.WrittenAs text) (hop : IsFixed op)
    (hk : op.kind.isPrefixOperator = true) (hh : ∃ d ∈ text.head?, d ≠ '=') :
    (unary op e).WrittenAs (op.lexeme.toList ++ text) := by
  obtain ⟨p, hs, hw⟩ := h
  exact ⟨_, .unary hs, hw.prefixed hop hk hh⟩

theorem Expr.WrittenAs.spaced {l r : Expr} {op : Token} {s t : List Char} (hl : l.WrittenAs s) (hop : IsFixed op)
    (hr : r.WrittenAs t) : (binary l op r).WrittenAs (s ++ ' ' :: (op.lexeme.toList ++ ' ' :: t)) := by
  obtain ⟨p, hsl, hwl⟩ := hl
  obtain ⟨q, hsr, hwr⟩ := hr
  exact ⟨_, .binary hsl hsr, hwl.spaced ((writes_fixed hop).spaced hwr)⟩

/-- A token with a value writes that value. -/
theorem writtenAs_token {t : Token} {v : Value} (hv : t.value? = some v)
    (h : Form (.token t.kind t.literal) t.lexeme.toList) : (literal v).WrittenAs t.lexeme.toList :=
  ⟨[t], .literal hv, writes_token h⟩

theorem writtenAs_number {x : Binary64} {text : String}
    (h : Form (.token .number (some (.number x))) text.toList) : (literal (.number x)).WrittenAs text.toList :=
  writtenAs_token (t := ⟨.number, text, some (.number x), 0⟩) rfl h

theorem writtenAs_digit {c : Char} (hc : isDigit c = true) : (digit c).WrittenAs [c] := by
  have h : Form (.token .number (some (.number (.ofNumeral [c] [])))) (String.ofList [c]).toList := by
    rw [String.toList_ofList]
    exact .integer (by simp) (by simpa using hc)
  rw [← String.toList_ofList (l := [c])]
  exact writtenAs_number h

theorem isFixed_minusSign : IsFixed .minusSign := ⟨by simp [Token.minusSign, fixedTexts], rfl⟩

theorem isFixed_slashSign : IsFixed .slashSign := ⟨by simp [Token.slashSign, fixedTexts], rfl⟩

theorem ne_equal_of_isDigit {c : Char} (hc : isDigit c = true) : c ≠ '=' := ne_of_isDigit hc rfl

/-- A number is written as the tree that stands for it. -/
theorem Binary64.writtenAs_source (x : Binary64) : x.printed.WrittenAs x.source.toList := by
  have h0 := writtenAs_digit (c := '0') rfl
  have h1 := writtenAs_digit (c := '1') rfl
  rcases x with _ | ⟨negative, m⟩
  · exact (h0.spaced isFixed_slashSign h0).parenthesised
  · rw [Binary64.printed, Binary64.source]
    by_cases hm : m.isInfinite = true
    · rw [if_pos hm, if_pos hm]
      by_cases hn : negative = true
      · rw [if_pos hn, if_pos hn]
        exact ((h1.prefixed isFixed_minusSign rfl ⟨'1', rfl, by decide⟩).spaced isFixed_slashSign h0).parenthesised
      · rw [if_neg hn, if_neg hn]
        exact (h1.spaced isFixed_slashSign h0).parenthesised
    · have hform := form_display (by simpa using hm : m.isInfinite = false)
      have hnum := writtenAs_number hform
      rw [if_neg hm, if_neg hm]
      by_cases hn : negative = true
      · obtain ⟨c, hc, hd⟩ := hform.number_head
        have h := (hnum.prefixed isFixed_minusSign rfl ⟨c, hc, ne_equal_of_isDigit hd⟩).parenthesised
        rw [if_pos hn, if_pos hn, String.toList_append, String.toList_append]
        exact h
      · rw [if_neg hn, if_neg hn]
        exact hnum

theorem form_reserved {c : Char} {cs : List Char} {kind : TokenKind} (hc : isLetter c = true)
    (hcs : cs.all isWordCharacter = true) (hk : TokenKind.keyword? (String.ofList (c :: cs)) = some kind) :
    Form (.token kind none) (c :: cs) :=
  .reserved hc (List.all_eq_true.1 hcs) hk

theorem Value.writtenAs_source {v : Value} (h : (Expr.literal v).WellFormed) :
    v.printed.WrittenAs v.source.toList := by
  cases v with
  | nil => exact writtenAs_token (t := ⟨.kwNil, "nil", none, 0⟩) rfl (form_reserved rfl rfl rfl)
  | bool b =>
    cases b with
    | false => exact writtenAs_token (t := ⟨.kwFalse, "false", none, 0⟩) rfl (form_reserved rfl rfl rfl)
    | true => exact writtenAs_token (t := ⟨.kwTrue, "true", none, 0⟩) rfl (form_reserved rfl rfl rfl)
  | number x => exact x.writtenAs_source
  | str s =>
    have htext : ("\"" ++ s ++ "\"").toList = '"' :: (s.toList ++ ['"']) := by
      rw [String.toList_append, String.toList_append]
      rfl
    have hform : Form (.token .string (some (.str s))) ("\"" ++ s ++ "\"").toList := by
      rw [htext]
      have := Form.string h
      rwa [String.ofList_toList] at this
    exact writtenAs_token (t := ⟨.string, "\"" ++ s ++ "\"", some (.str s), 0⟩) rfl hform

theorem Binary64.source_head (x : Binary64) : ∃ c ∈ x.source.toList.head?, c ≠ '=' := by
  rcases x with _ | ⟨negative, m⟩
  · exact ⟨'(', rfl, by decide⟩
  · rw [Binary64.source]
    by_cases hm : m.isInfinite = true
    · rw [if_pos hm]
      cases negative with
      | false => exact ⟨'(', rfl, by decide⟩
      | true => exact ⟨'(', rfl, by decide⟩
    · rw [if_neg hm]
      cases negative with
      | false =>
        obtain ⟨c, hc, hd⟩ := (form_display (by simpa using hm : m.isInfinite = false)).number_head
        exact ⟨c, hc, ne_equal_of_isDigit hd⟩
      | true =>
        rw [if_pos rfl, String.toList_append, String.toList_append]
        exact ⟨'(', rfl, by decide⟩

/-- The text of an operand does not begin with `=`, which would continue a `!` in front of it. -/
theorem Expr.operand_head (e : Expr) : ∃ c ∈ (parenthesised e.isCompound e.source).toList.head?, c ≠ '=' := by
  have hopen (s : String) : ∃ c ∈ ("(" ++ s ++ ")").toList.head?, c ≠ '=' := by
    rw [String.toList_append, String.toList_append]
    exact ⟨'(', rfl, by decide⟩
  cases e with
  | literal v =>
    cases v with
    | nil => exact ⟨'n', rfl, by decide⟩
    | bool b =>
      cases b with
      | false => exact ⟨'f', rfl, by decide⟩
      | true => exact ⟨'t', rfl, by decide⟩
    | number x => exact x.source_head
    | str s =>
      refine ⟨'"', ?_, by decide⟩
      simp [parenthesised, isCompound, source, Value.source]
  | grouping e => exact hopen _
  | unary op e => exact hopen _
  | binary l op r => exact hopen _

/-- An operand is written as the operand of the printed tree. -/
theorem Expr.WrittenAs.operand {e : Expr} (h : e.printed.WrittenAs e.source.toList) :
    (enclosed e.isCompound e.printed).WrittenAs (Expr.parenthesised e.isCompound e.source).toList := by
  cases hc : e.isCompound with
  | false => exact h
  | true =>
    have htext : (Expr.parenthesised true e.source).toList = '(' :: (e.source.toList ++ [')']) := by
      rw [Expr.parenthesised, if_pos rfl, String.toList_append, String.toList_append]
      rfl
    rw [htext]
    exact h.parenthesised

/-- **The text of a tree writes the printed tree.** -/
theorem Expr.WellFormed.writtenAs_source {e : Expr} (h : e.WellFormed) : e.printed.WrittenAs e.source.toList := by
  induction e with
  | literal v => exact Value.writtenAs_source h
  | grouping e ih =>
    rw [source, String.toList_append, String.toList_append]
    exact (ih h).parenthesised
  | unary op e ih =>
    obtain ⟨hk, hop, he⟩ := h
    rw [source, String.toList_append]
    exact (ih he).operand.prefixed hop hk e.operand_head
  | binary l op r ihl ihr =>
    obtain ⟨-, hop, hl, hr⟩ := h
    have htext : (binary l op r).source.toList = (parenthesised l.isCompound l.source).toList ++
        ' ' :: (op.lexeme.toList ++ ' ' :: (parenthesised r.isCompound r.source).toList) := by
      simp [source, String.toList_append]
    rw [htext]
    exact (ihl hl).operand.spaced hop (ihr hr).operand

end Writes

/-! ## Compiling written trees -/

section Compile

open LoxCalc.Expr

variable {source : String} {e : Expr}

/-- The whole failure is the one complaint about nesting. -/
def RefusedForNesting (result : Except Failure Expr) : Prop :=
  ∃ error, result = .error (.diagnostics [.syntactic error]) ∧ error.message = SyntaxCause.tooMuchNesting.message

theorem not_refusedForNesting_ok (e : Expr) : ¬ RefusedForNesting (.ok e) := by
  rintro ⟨error, herror, -⟩
  cases herror

theorem compile_eq_ok_iff :
    compile source = .ok e ↔ parse (scan source).tokens = .ok e ∧ (scan source).errors = [] := by
  unfold compile
  cases hp : parse (scan source).tokens with
  | error f => simp [hp]
  | ok e' =>
    by_cases he : (scan source).errors = []
    · simp [hp, he]
    · simp [hp, he]

/-- **A text that writes a canonical tree** is compiled to it, lines apart, or refused for its nesting. -/
theorem compile_of_writtenAs (h : e.WrittenAs source.toList) (hc : e.Canonical) :
    (e.FitsAt 0 0 → ∃ e', compile source = .ok e' ∧ e'.unplaced = e.unplaced) ∧
      (¬ e.FitsAt 0 0 → RefusedForNesting (compile source)) := by
  obtain ⟨p, hs, hw⟩ := h
  obtain ⟨q, ending, htokens, hq, hending, herrors⟩ := scan_of_writes hw
  obtain ⟨e', hs', he'⟩ := hs.exists_of_content hq
  have hc' : e'.Canonical := (canonical_iff_of_unplaced he').2 hc
  have hfits : e'.FitsAt 0 0 ↔ e.FitsAt 0 0 := fitsAt_iff_of_unplaced he' 0 0
  have hbody : (scan source).tokens.takeWhile (·.kind != .eof) = q ++ [] := by
    rw [htokens, List.takeWhile_append_of_pos (by simpa using hs'.kind_ne_eof hc')]
    simp [hending]
  obtain ⟨hok, hrefused⟩ := parse_of_phrase hbody ⟨Nat.zero_le _, hc', hs'⟩ trivial
  constructor
  · intro hf
    exact ⟨e', compile_eq_ok_iff.2 ⟨hok (hfits.2 hf), herrors⟩, he'⟩
  · intro hf
    obtain ⟨t, ht⟩ := hrefused (mt hfits.1 hf)
    refine ⟨.atToken t SyntaxCause.tooMuchNesting.message, ?_, rfl⟩
    simp only [compile, ht, herrors, List.map_nil, List.nil_append]

/-- **The printed form of a tree** is compiled to the printed tree, lines apart, or refused for its nesting. -/
theorem compile_source (h : e.WellFormed) :
    (e.printed.FitsAt 0 0 → ∃ e', compile e.source = .ok e' ∧ e'.unplaced = e.printed.unplaced) ∧
      (¬ e.printed.FitsAt 0 0 → RefusedForNesting (compile e.source)) :=
  compile_of_writtenAs h.writtenAs_source h.printed_canonical

end Compile

end LoxCalc
