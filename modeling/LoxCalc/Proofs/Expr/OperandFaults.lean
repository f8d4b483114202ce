import LoxCalc.Proofs.Expr.BreaksOff
import LoxCalc.Proofs.Expr.Meaning
import LoxCalc.Proofs.Expr.Refusals

/-!
# LoxCalc.Proofs.Expr.OperandFaults — a parsed tree fails only at an operator that refuses its operands

* `Expr.Operable e`: the prefix operators of the tree are prefix operators of the language, the binary ones binary
  operators.  Parsed trees are (`Expr.Canonical.operable`), and their operators are tokens of what was parsed, in order
  (`Expr.Spells.operatorTokens_sublist`).
* `Expr.Operable.eval_eq_error`: a fault of such a tree lies at one of its operators and is one of `operandFaults`.
* `Expr.Operable.eval_mapOperators`: only the kinds of its operators matter, since no fault spells out an operator.
* `run_faults`: so it is for every text that is run, and each of `operandFaults` does arise.
-/

namespace LoxCalc

/-- The operators that refuse some operands, and why. -/
def operandFaults : List (TokenKind × EvalCause) :=
  [(.plus, .operandsNotAddable), (.slash, .operandsNotNumbers), (.star, .operandsNotNumbers),
    (.greater, .operandsNotNumbers), (.greaterEqual, .operandsNotNumbers), (.less, .operandsNotNumbers),
    (.lessEqual, .operandsNotNumbers), (.minus, .operandsNotNumbers), (.minus, .operandNotNumber)]

/-- The same operators, and what is said then. -/
def operandFaultTexts : List (TokenKind × String) :=
  [(.plus, "Operands must be two numbers or two strings."), (.slash, "Operand must be numbers."),
    (.star, "Operand must be numbers."), (.greater, "Operand must be numbers."),
    (.greaterEqual, "Operand must be numbers."), (.less, "Operand must be numbers."),
    (.lessEqual, "Operand must be numbers."), (.minus, "Operand must be numbers."),
    (.minus, "Operand must be a number.")]

theorem map_operandFaults : operandFaults.map (fun p => (p.1, p.2.message)) = operandFaultTexts := rfl

/-! ## One operator -/

theorem TokenKind.isPrefixOperator_iff {kind : TokenKind} :
    kind.isPrefixOperator = true ↔ kind = .minus ∨ kind = .bang := by
  cases kind <;> decide

theorem TokenKind.isBinaryOperator_iff {kind : TokenKind} :
    kind.isBinaryOperator = true ↔ kind ∈ .plus :: .equalEqual :: .bangEqual :: numericOperators := by
  cases kind <;> decide

theorem faultAt_eq_error_iff {op : Token} {answer : Except EvalCause Value} {fault : RuntimeError} :
    faultAt op answer = .error fault ↔ ∃ cause, answer = .error cause ∧ fault = ⟨op, cause.message⟩ := by
  cases answer <;> simp [faultAt, Except.mapError, eq_comm]

namespace Value

variable {op : Token} {v w : Value} {cause : EvalCause}

theorem applyUnary_eq_error (hop : op.kind.isPrefixOperator = true) (h : v.applyUnary op = .error cause) :
    (op.kind, cause) ∈ operandFaults := by
  rcases applyUnary_eq_error_iff.1 h with ⟨hk, -⟩ | ⟨hminus, hbang⟩
  · rw [hk]
    decide
  · rcases TokenKind.isPrefixOperator_iff.1 hop with hk | hk
    · exact absurd hk hminus
    · exact absurd hk hbang

theorem applyBinary_eq_error (hop : op.kind.isBinaryOperator = true) (h : v.applyBinary op w = .error cause) :
    (op.kind, cause) ∈ operandFaults := by
  have hnumeric : ∀ kind ∈ numericOperators, (kind, EvalCause.operandsNotNumbers) ∈ operandFaults := by decide
  rcases applyBinary_eq_error_iff.1 h with ⟨hk, -, -⟩ | ⟨hk, -⟩ | hk
  · rw [hk]
    decide
  · exact hnumeric _ hk
  · exact absurd (TokenKind.isBinaryOperator_iff.1 hop) hk

theorem applyUnary_congr {op' : Token} (hop : op.kind.isPrefixOperator = true) (hk : op'.kind = op.kind) :
    v.applyUnary op' = v.applyUnary op := by
  unfold applyUnary
  rw [hk]
  cases h : op.kind <;> simp [h, TokenKind.isPrefixOperator] at hop <;> rfl

theorem applyBinary_congr {op' : Token} (hop : op.kind.isBinaryOperator = true) (hk : op'.kind = op.kind) :
    v.applyBinary op' w = v.applyBinary op w := by
  unfold applyBinary
  rw [hk]
  cases h : op.kind <;> simp [h, TokenKind.isBinaryOperator, TokenKind.binaryRank?] at hop <;> rfl

end Value

/-! ## Trees -/

namespace Expr

/-- The operator tokens of a tree, from left to right. -/
def operatorTokens : Expr → List Token
  | literal _ => []
  | grouping e => e.operatorTokens
  | unary op e => op :: e.operatorTokens
  | binary l op r => l.operatorTokens ++ op :: r.operatorTokens

/-- All operators of a tree are operators of the language, for as many operands as they have. -/
def Operable (e : Expr) : Prop := e.OperatorsIn (·.kind.isPrefixOperator = true) (·.kind.isBinaryOperator = true)

theorem Canonical.operable {e : Expr} (h : e.Canonical) : e.Operable := by
  induction e with
  | literal v => trivial
  | grouping e ih => exact ih h
  | unary op e ih => exact ⟨h.1, ih h.2.2⟩
  | binary l op r ihl ihr =>
    obtain ⟨m, hm, -, -, hl, hr⟩ := h
    exact ⟨Option.isSome_of_eq_some hm, ihl hl, ihr hr⟩

/-- The operators of a tree are tokens of it, in order. -/
theorem Spells.operatorTokens_sublist {e : Expr} {p : List Token} (h : e.Spells p) : e.operatorTokens.Sublist p := by
  induction h with
  | literal _ => exact List.nil_sublist _
  | grouping _ _ _ ih => exact (ih.trans (List.sublist_append_left _ _)).cons _
  | unary _ ih => exact ih.cons_cons _
  | binary _ _ ihl ihr => exact ihl.append (ihr.cons_cons _)

section Operable

variable {e : Expr} (h : e.Operable)
include h

/-- **A fault lies at an operator of the tree** that refuses its operands. -/
theorem Operable.eval_eq_error {fault : RuntimeError} (hf : e.eval = .error fault) :
    fault.operator ∈ e.operatorTokens ∧
      ∃ cause, (fault.operator.kind, cause) ∈ operandFaults ∧ fault.message = cause.message := by
  induction e with
  | literal v => cases hf
  | grouping e ih => exact ih h hf
  | unary op e ih =>
    rw [eval_unary, bind_eq_error_iff] at hf
    rcases hf with hf | ⟨v, -, hf⟩
    · obtain ⟨hmem, hfault⟩ := ih h.2 hf
      exact ⟨List.mem_cons_of_mem _ hmem, hfault⟩
    · obtain ⟨cause, hcause, rfl⟩ := faultAt_eq_error_iff.1 hf
      exact ⟨List.mem_cons_self, cause, Value.applyUnary_eq_error h.1 hcause, rfl⟩
  | binary l op r ihl ihr =>
    rw [eval_binary, bind_eq_error_iff] at hf
    rcases hf with hf | ⟨v, -, hf⟩
    · obtain ⟨hmem, hfault⟩ := ihl h.2.1 hf
      exact ⟨List.mem_append_left _ hmem, hfault⟩
    rcases bind_eq_error_iff.1 hf with hf | ⟨w, -, hf⟩
    · obtain ⟨hmem, hfault⟩ := ihr h.2.2 hf
      exact ⟨List.mem_append_right _ (List.mem_cons_of_mem _ hmem), hfault⟩
    · obtain ⟨cause, hcause, rfl⟩ := faultAt_eq_error_iff.1 hf
      exact ⟨List.mem_append_right _ List.mem_cons_self, cause, Value.applyBinary_eq_error h.1 hcause, rfl⟩

/-- **Only the kinds of the operators matter**: other operators of the same kinds give the same value, or the same
fault at the operator in the same place. -/
theorem Operable.eval_mapOperators {f : Token → Token} (hf : ∀ t, (f t).kind = t.kind) :
    (e.mapOperators f).eval = e.eval.mapError (.mapOperator f) :=
  OperatorsIn.eval_mapOperators (fun op hop _ => Value.applyUnary_congr hop (hf op))
    (fun op hop _ _ => Value.applyBinary_congr hop (hf op)) h

end Operable

end Expr

/-! ## Texts -/

/-- A compiled tree has operators of the language only, and they are tokens of the text. -/
theorem operable_of_compile {source : String} {e : Expr} (h : compile source = .ok e) :
    e.Operable ∧ ∀ t ∈ e.operatorTokens, t ∈ (scan source).tokens := by
  obtain ⟨p, rest, hb, hp, -, -⟩ := exists_phrase_of_parse (compile_eq_ok_iff.1 h).1
  refine ⟨hp.canonical.operable, fun t ht => ?_⟩
  have htp : t ∈ p := hp.spells.operatorTokens_sublist.subset ht
  exact (List.takeWhile_sublist _).subset (hb ▸ List.mem_append_left rest htp)

theorem compile_eq_error {source : String} {failure : Failure} (h : compile source = .error failure) :
    ∃ ds, failure = .diagnostics ds := by
  simp only [compile] at h
  split at h
  · split at h
    · cases h
    · exact ⟨_, (Except.error.inj h).symm⟩
  · exact ⟨_, (Except.error.inj h).symm⟩

/-- A run fails with what is wrong with the text, or with a fault of its tree. -/
theorem run_eq_error_iff {source : String} {failure : Failure} : run source = .error failure ↔
    compile source = .error failure ∨ ∃ e fault, compile source = .ok e ∧ e.eval = .error fault ∧
      failure = .runtime fault := by
  have hrun : run source = (compile source).bind fun e => e.eval.mapError .runtime := rfl
  rw [hrun, bind_eq_error_iff]
  refine or_congr Iff.rfl (exists_congr fun e => ?_)
  cases e.eval <;> simp [Except.mapError, eq_comm]

theorem EvalCause.message_unknownUnary (lexeme : String) :
    (unknownUnary lexeme).message = "Unknown unary operator '" ++ lexeme ++ "'." := rfl

theorem EvalCause.message_unknownBinary (lexeme : String) :
    (unknownBinary lexeme).message = "Unknown binary operator '" ++ lexeme ++ "'." := rfl

/-- The first letter tells what is said of operands from what is said of operators that evaluation does not know. -/
theorem EvalCause.head_message (cause : EvalCause) : cause.message.toList.head? = some (match cause with
    | unknownUnary _ => 'U'
    | unknownBinary _ => 'U'
    | _ => 'O') := by
  cases cause with
  | unknownUnary lexeme =>
    rw [message_unknownUnary, String.toList_append, String.toList_append]
    rfl
  | unknownBinary lexeme =>
    rw [message_unknownBinary, String.toList_append, String.toList_append]
    rfl
  | _ => rfl

theorem not_unknown_of_mem_operandFaults {k : TokenKind} {cause : EvalCause} (h : (k, cause) ∈ operandFaults)
    (lexeme : String) :
    cause.message ≠ (EvalCause.unknownUnary lexeme).message ∧
      cause.message ≠ (EvalCause.unknownBinary lexeme).message := by
  have hall : ∀ p ∈ operandFaults, p.2.message.toList.head? = some 'O' := by
    simp [operandFaults, EvalCause.head_message]
  have hhead := hall _ h
  constructor <;> intro heq <;> rw [heq, EvalCause.head_message] at hhead <;> cases hhead

/-- The fault lies at a token of the text, an operator that refuses its operands. -/
structure IsOperandFault (source : String) (fault : RuntimeError) : Prop where
  operator_mem : fault.operator ∈ (scan source).tokens
  text_mem : (fault.operator.kind, fault.message) ∈ operandFaultTexts
  /-- It is not about an operator that evaluation does not know. -/
  not_unknown : ∀ lexeme, fault.message ≠ (EvalCause.unknownUnary lexeme).message ∧
    fault.message ≠ (EvalCause.unknownBinary lexeme).message

/-- **Running a text fails** because of diagnostics or because an operator of the text refuses its operands; the tree
has no operator that evaluation does not know.  Each of the faults arises. -/
theorem run_faults :
    (∀ (source : String) (failure : Failure), run source = .error failure →
      (∃ ds, failure = .diagnostics ds) ∨ ∃ fault, failure = .runtime fault ∧ IsOperandFault source fault) ∧
    (∀ (source : String) (e : Expr), compile source = .ok e → e.Operable) ∧
    ∀ p ∈ operandFaultTexts, ∃ source op, op.kind = p.1 ∧ run source = .error (.runtime ⟨op, p.2⟩) := by
  refine ⟨?_, fun source e h => (operable_of_compile h).1, ?_⟩
  · intro source failure h
    rcases run_eq_error_iff.1 h with hc | ⟨e, fault, hc, hf, rfl⟩
    · exact .inl (compile_eq_error hc)
    · obtain ⟨hoperable, htokens⟩ := operable_of_compile hc
      obtain ⟨hmem, cause, hcause, hmessage⟩ := hoperable.eval_eq_error hf
      have htext := List.mem_map_of_mem (f := fun p => (p.1, p.2.message)) hcause
      rw [map_operandFaults, ← hmessage] at htext
      exact .inr ⟨fault, rfl, htokens _ hmem, htext, hmessage ▸ not_unknown_of_mem_operandFaults hcause⟩
  · have harises (source lexeme : String) {kind : TokenKind} {message : String}
        (h : run source = .error (.runtime ⟨⟨kind, lexeme, none, 1⟩, message⟩)) :
        ∃ source op, op.kind = kind ∧ run source = .error (.runtime ⟨op, message⟩) := ⟨source, _, rfl, h⟩
    simp only [operandFaultTexts, List.forall_mem_cons]
    exact ⟨harises "nil + 1" "+" (by decide +kernel), harises "nil / 1" "/" (by decide +kernel),
      harises "nil * 1" "*" (by decide +kernel), harises "nil > 1" ">" (by decide +kernel),
      harises "nil >= 1" ">=" (by decide +kernel), harises "nil < 1" "<" (by decide +kernel),
      harises "nil <= 1" "<=" (by decide +kernel), harises "nil - 1" "-" (by decide +kernel),
      harises "-nil" "-" (by decide +kernel), List.forall_mem_nil _⟩

end LoxCalc
