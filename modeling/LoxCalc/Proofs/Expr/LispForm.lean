import LoxCalc.Proofs.Decimal.Displayed
import LoxCalc.Proofs.Expr.Meaning

/-!
# LoxCalc.Proofs.Expr.LispForm — the Lisp form of a tree without strings says what the tree is

A Lisp form is made of words, spaces and parentheses.  What is displayed of a value that is no string is a word
(`Value.isWord_display`), and no two such values are displayed alike (`Value.display_inj`).  Any other form is a word
and the forms of parts, in parentheses.  Where a space or a closing parenthesis follows, a word ends, and so does the
form of a tree: whatever follows two forms, they are the same text only if their trees are the same, lines apart
(`Expr.readsUniquely`).
-/

namespace LoxCalc

open Segment

/-! ## Displayed values -/

/-- No number is displayed as another value is. -/
theorem Binary64.display_ne_word (x : Binary64) : x.display ∉ ["nil", "true", "false"] := by
  have hne {c : Char} (hc : openingOf c ∉ ['N', '-', 'I', '0']) (cs : List Char) : x.display.toList ≠ c :: cs := by
    simpa using (isSpelling_display x).append_ne hc [] cs
  simp only [List.mem_cons, List.not_mem_nil, or_false, not_or, ← String.toList_inj]
  exact ⟨hne (by decide) _, hne (by decide) _, hne (by decide) _⟩

namespace Value

variable {v w : Value}

theorem isWord_display (hv : ∀ s, v ≠ str s) : IsWord v.display.toList := by
  cases v with
  | nil => decide
  | bool b => cases b <;> decide
  | number x => exact (isSpelling_display x).isWord
  | str s => exact absurd rfl (hv s)

/-- Only a number is displayed as a number is. -/
theorem eq_number_of_display_eq (hv : ∀ s, v ≠ str s) (x : Binary64) (h : v.display = x.display) : v = number x := by
  cases v with
  | nil => exact absurd (h ▸ List.mem_cons_self) x.display_ne_word
  | bool b => cases b <;> exact absurd (h ▸ by decide) x.display_ne_word
  | number y => rw [display_injective h]
  | str s => exact absurd rfl (hv s)

theorem display_bool_ne_nil (b : Bool) : (bool b).display ≠ nil.display := by
  cases b <;> decide

/-- **No two values are displayed alike**, strings apart. -/
theorem display_inj (hv : ∀ s, v ≠ str s) (hw : ∀ s, w ≠ str s) (h : v.display = w.display) : v = w := by
  cases v with
  | number x => exact (eq_number_of_display_eq hw x h.symm).symm
  | str s => exact absurd rfl (hv s)
  | nil =>
    cases w with
    | nil => rfl
    | bool b => exact absurd h (display_bool_ne_nil b).symm
    | number y => exact eq_number_of_display_eq hv y h
    | str s => exact absurd rfl (hw s)
  | bool a =>
    cases w with
    | nil => exact absurd h (display_bool_ne_nil a)
    | bool b =>
      have hall : ∀ a b : Bool, (bool a).display = (bool b).display → a = b := by decide
      rw [hall a b h]
    | number y => exact eq_number_of_display_eq hv y h
    | str s => exact absurd rfl (hw s)

end Value

/-! ## Trees -/

namespace Expr

/-- No literal of the tree is a string. -/
def StringFree : Expr → Prop
  | literal v => ∀ s, v ≠ .str s
  | grouping e => e.StringFree
  | unary _ e => e.StringFree
  | binary l _ r => l.StringFree ∧ r.StringFree

section Operators

variable {op op' : Token}

/-- Operators with the same text are the same, lines apart. -/
theorem unplaced_eq_of_lexeme (h : IsFixed op) (h' : IsFixed op') (hl : op.lexeme.toList = op'.lexeme.toList) :
    op.unplaced = op'.unplaced := by
  have hall : ∀ p ∈ fixedTexts, ∀ q ∈ fixedTexts, p.1 = q.1 → p.2 = q.2 := by decide
  have hk : op.kind = op'.kind := hall _ h.1 _ h'.1 hl
  rw [Token.unplaced_eq_iff, Token.content, Token.content, String.toList_injective hl, hk, h.2, h'.2]

/-- The text of an operator is a word, and not the one of groupings. -/
theorem isWord_lexeme (h : IsFixed op) (hk : op.kind.isPrefixOperator = true ∨ op.kind.isBinaryOperator = true) :
    IsWord op.lexeme.toList ∧ op.lexeme.toList ≠ "group".toList := by
  have hall : ∀ p ∈ fixedTexts, p.2.isPrefixOperator = true ∨ p.2.isBinaryOperator = true →
      IsWord p.1 ∧ p.1 ≠ "group".toList := by decide
  exact hall _ h.1 hk

end Operators

/-! ### The form of a compound tree -/

/-- The word that a form begins with. -/
def headWord : Expr → String
  | literal v => v.display
  | grouping _ => "group"
  | unary op _ => op.lexeme
  | binary _ op _ => op.lexeme

/-- The trees whose forms follow the word. -/
def parts : Expr → List Expr
  | literal _ => []
  | grouping e => [e]
  | unary _ e => [e]
  | binary l _ r => [l, r]

/-- The forms of parts up to the closing parenthesis, and what follows it. -/
def formsBefore (cs : List Char) : List Expr → List Char
  | [] => ')' :: cs
  | p :: ps => ' ' :: (p.lispForm.toList ++ formsBefore cs ps)

theorem toList_lispForm {e : Expr} (he : e.parts ≠ []) (cs : List Char) :
    e.lispForm.toList ++ cs = '(' :: (e.headWord.toList ++ formsBefore cs e.parts) := by
  cases e with
  | literal v => exact absurd rfl he
  | grouping e | unary op e | binary l op r =>
    rw [lispForm]
    simp [headWord, parts, formsBefore, String.toList_append]

theorem endsWord_formsBefore (cs : List Char) (ps : List Expr) : EndsWord (formsBefore cs ps) := by
  cases ps with
  | nil => exact endsWord_close _
  | cons p ps => exact endsWord_space _

theorem isWord_headWord {e : Expr} (h : e.WellFormed) (he : e.parts ≠ []) : IsWord e.headWord.toList := by
  cases e with
  | literal v => exact absurd rfl he
  | grouping e =>
    show IsWord "group".toList
    decide
  | unary op e => exact (isWord_lexeme h.2.1 (.inl h.1)).1
  | binary l op r => exact (isWord_lexeme h.2.1 (.inr h.1)).1

/-- The word and the parts make the tree, lines apart. -/
theorem unplaced_eq_of_parts {e e' : Expr} (h : e.WellFormed) (h' : e'.WellFormed) (he : e.parts ≠ [])
    (hhead : e.headWord.toList = e'.headWord.toList) (hparts : e.parts.map unplaced = e'.parts.map unplaced) :
    e.unplaced = e'.unplaced := by
  -- a minus before one operand and one between two are told apart by the number of parts
  cases e with
  | literal v => exact absurd rfl he
  | grouping e =>
    cases e' with
    | literal w => simp [parts] at hparts
    | grouping e' => rw [unplaced, (List.cons.inj hparts).1, unplaced]
    | unary op' e' => exact absurd hhead.symm (isWord_lexeme h'.2.1 (.inl h'.1)).2
    | binary l' op' r' => simp [parts] at hparts
  | unary op e =>
    cases e' with
    | literal w => simp [parts] at hparts
    | grouping e' => exact absurd hhead (isWord_lexeme h.2.1 (.inl h.1)).2
    | unary op' e' => rw [unplaced, unplaced_eq_of_lexeme h.2.1 h'.2.1 hhead, (List.cons.inj hparts).1, unplaced]
    | binary l' op' r' => simp [parts] at hparts
  | binary l op r =>
    cases e' with
    | binary l' op' r' =>
      obtain ⟨hleft, hright⟩ := List.cons.inj hparts
      rw [unplaced, hleft, unplaced_eq_of_lexeme h.2.1 h'.2.1 hhead, (List.cons.inj hright).1, unplaced]
    | literal w | grouping e' | unary op' e' => simp [parts] at hparts

/-! ### Unique reading -/

/-- Whatever follows them, if no word goes on there, the form of the tree and another one are the same text only if the
trees are the same, lines apart. -/
def ReadsUniquely (e : Expr) : Prop :=
  ∀ {e' : Expr} {cs ds : List Char}, e'.WellFormed → e'.StringFree → EndsWord cs → EndsWord ds →
    e.lispForm.toList ++ cs = e'.lispForm.toList ++ ds → e.unplaced = e'.unplaced ∧ cs = ds

theorem formsBefore_inj {ps ps' : List Expr} {cs ds : List Char} (hps : ∀ p ∈ ps, p.ReadsUniquely)
    (hps' : ∀ p ∈ ps', p.WellFormed ∧ p.StringFree) (heq : formsBefore cs ps = formsBefore ds ps') :
    ps.map unplaced = ps'.map unplaced ∧ cs = ds := by
  induction ps generalizing ps' with
  | nil =>
    cases ps' with
    | nil => exact ⟨rfl, (List.cons.inj heq).2⟩
    | cons p' ps' => cases heq
  | cons p ps ih =>
    cases ps' with
    | nil => cases heq
    | cons p' ps' =>
      obtain ⟨hp', hps'⟩ := List.forall_mem_cons.1 hps'
      obtain ⟨hp, hps⟩ := List.forall_mem_cons.1 hps
      obtain ⟨hpart, hmore⟩ :=
        hp hp'.1 hp'.2 (endsWord_formsBefore cs ps) (endsWord_formsBefore ds ps') (List.cons.inj heq).2
      obtain ⟨hparts, hrest⟩ := ih hps hps' hmore
      rw [List.map_cons, hpart, hparts, List.map_cons]
      exact ⟨rfl, hrest⟩

theorem parts_wellFormed {e : Expr} (h : e.WellFormed) (hs : e.StringFree) :
    ∀ p ∈ e.parts, p.WellFormed ∧ p.StringFree := by
  cases e with
  | literal v => exact List.forall_mem_nil _
  | grouping e => exact List.forall_mem_singleton.2 ⟨h, hs⟩
  | unary op e => exact List.forall_mem_singleton.2 ⟨h.2.2, hs⟩
  | binary l op r => exact List.forall_mem_cons.2 ⟨⟨h.2.2.1, hs.1⟩, List.forall_mem_singleton.2 ⟨h.2.2.2, hs.2⟩⟩

theorem exists_literal_of_parts {e : Expr} (he : e.parts = []) : ∃ v, e = literal v := by
  cases e with
  | literal v => exact ⟨v, rfl⟩
  | grouping e | unary op e | binary l op r => cases he

/-- A display is no form of a compound tree. -/
theorem display_append_ne {v : Value} {e : Expr} {cs ds : List Char} (hv : ∀ s, v ≠ .str s) (he : e.parts ≠ [])
    (hcs : EndsWord cs) : (literal v).lispForm.toList ++ cs ≠ e.lispForm.toList ++ ds := by
  rw [toList_lispForm he]
  exact (Value.isWord_display hv).append_ne hcs _

theorem readsUniquely_literal {v : Value} (hv : ∀ s, v ≠ .str s) : (literal v).ReadsUniquely := by
  intro e' cs ds _ hs' hcs hds heq
  by_cases he' : e'.parts = []
  · obtain ⟨w, rfl⟩ := exists_literal_of_parts he'
    obtain ⟨hdisplay, hrest⟩ := (Value.isWord_display hv).append_inj (Value.isWord_display hs') hcs hds heq
    rw [Value.display_inj hv hs' (String.toList_injective hdisplay)]
    exact ⟨rfl, hrest⟩
  · exact absurd heq (display_append_ne hv he' hcs)

theorem readsUniquely_of_parts {e : Expr} (h : e.WellFormed) (he : e.parts ≠ [])
    (hparts : ∀ p ∈ e.parts, p.ReadsUniquely) : e.ReadsUniquely := by
  intro e' cs ds h' hs' _ hds heq
  by_cases he' : e'.parts = []
  · obtain ⟨w, rfl⟩ := exists_literal_of_parts he'
    exact absurd heq.symm (display_append_ne hs' he hds)
  · rw [toList_lispForm he, toList_lispForm he'] at heq
    obtain ⟨hhead, hforms⟩ := (isWord_headWord h he).append_inj (isWord_headWord h' he') (endsWord_formsBefore _ _)
      (endsWord_formsBefore _ _) (List.cons.inj heq).2
    obtain ⟨hunplaced, hrest⟩ := formsBefore_inj hparts (parts_wellFormed h' hs') hforms
    exact ⟨unplaced_eq_of_parts h h' he hhead hunplaced, hrest⟩

/-- **Unique reading** of the forms of trees without strings. -/
theorem readsUniquely {e : Expr} (h : e.WellFormed) (hs : e.StringFree) : e.ReadsUniquely := by
  induction e with
  | literal v => exact readsUniquely_literal hs
  | grouping e ih => exact readsUniquely_of_parts h nofun (List.forall_mem_singleton.2 (ih h hs))
  | unary op e ih => exact readsUniquely_of_parts h nofun (List.forall_mem_singleton.2 (ih h.2.2 hs))
  | binary l op r ihl ihr =>
    refine readsUniquely_of_parts h nofun (List.forall_mem_cons.2 ⟨ihl h.2.2.1 hs.1, ?_⟩)
    exact List.forall_mem_singleton.2 (ihr h.2.2.2 hs.2)

/-- What is shown of an operator token is its text. -/
theorem lispForm_mapOperators {f : Token → Token} (hf : KeepsText f) (e : Expr) :
    (e.mapOperators f).lispForm = e.lispForm := by
  induction e with
  | literal v => rfl
  | grouping e ih => rw [mapOperators, lispForm, ih, lispForm]
  | unary op e ih => rw [mapOperators, lispForm, ih, (hf op).2, lispForm]
  | binary l op r ihl ihr => rw [mapOperators, lispForm, ihl, ihr, (hf op).2, lispForm]

/-- **The Lisp form says what the tree is**: trees without strings, whose operators are written as in the language, have
the same form iff they are the same, the lines of their operators apart. -/
theorem lispForm_eq_iff {e e' : Expr} (h : e.WellFormed) (hs : e.StringFree) (h' : e'.WellFormed)
    (hs' : e'.StringFree) : e.lispForm = e'.lispForm ↔ e.unplaced = e'.unplaced := by
  have hnone : EndsWord [] := by rintro c ⟨⟩
  constructor
  · intro heq
    exact (readsUniquely h hs h' hs' hnone hnone (by rw [heq])).1
  · intro heq
    rw [← lispForm_mapOperators keepsText_unplaced e, ← unplaced_eq_mapOperators, heq, unplaced_eq_mapOperators,
      lispForm_mapOperators keepsText_unplaced]

/-- A negative number beside a negation, subtracted on a given line. -/
def mixedMinuses (line : Nat) : Expr :=
  binary (literal (.number (.signed true .zero))) ⟨.minus, "-", none, line⟩
    (unary ⟨.minus, "-", none, line⟩ (grouping (literal (.number .nan))))

/-- **Three kinds of minus** in one form, which is read in one way. -/
theorem lispForm_mixedMinuses :
    ((mixedMinuses 1).WellFormed ∧ (mixedMinuses 1).StringFree ∧ (mixedMinuses 7).WellFormed ∧
      (mixedMinuses 7).StringFree) ∧
    (mixedMinuses 1).lispForm = "(- -0 (- (group NaN)))" ∧
    ((mixedMinuses 1).lispForm = (mixedMinuses 7).lispForm ↔
      (mixedMinuses 1).unplaced = (mixedMinuses 7).unplaced) := by
  have hminus (line : Nat) : IsFixed ⟨.minus, "-", none, line⟩ := ⟨by simp [fixedTexts], rfl⟩
  have hwell (line : Nat) : (mixedMinuses line).WellFormed :=
    ⟨rfl, hminus line, trivial, rfl, hminus line, trivial⟩
  have hfree (line : Nat) : (mixedMinuses line).StringFree := ⟨by rintro s ⟨⟩, by rintro s ⟨⟩⟩
  exact ⟨⟨hwell 1, hfree 1, hwell 7, hfree 7⟩, by decide +kernel,
    lispForm_eq_iff (hwell 1) (hfree 1) (hwell 7) (hfree 7)⟩

end Expr

end LoxCalc
