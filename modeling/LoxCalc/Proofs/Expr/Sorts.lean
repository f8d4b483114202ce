import LoxCalc.Proofs.Expr.EvalOrder
import Mathlib.Data.List.Forall2

/-!
# LoxCalc.Proofs.Expr.Sorts — faults depend on the sorts of values, never on the values

* `ValueSort`: nil, boolean, number, string.  Operators act on sorts as they do on values (`Value.sort_applyUnary`,
  `Value.sort_applyBinary`): what they give is of a sort, or refused for a cause, that the sorts of the operands decide.
* `Outline`: a tree with sorts in place of the values of its literals.  `Outline.check` gives a node its sort or the
  fault below it; evaluation ends in a value of this sort or in this fault (`Expr.eval_sort`).
* So trees with the same outline end alike at every node (`Expr.eval_alike`).
-/

namespace LoxCalc

/-- The sorts of values. -/
inductive ValueSort where
  | nil
  | bool
  | number
  | str
deriving DecidableEq, Repr

def Value.sort : Value → ValueSort
  | nil => .nil
  | bool _ => .bool
  | number _ => .number
  | str _ => .str

/-! ## Operators on sorts -/

namespace ValueSort

/-- The sort of what a prefix operator gives. -/
def applyUnary (operator : Token) (right : ValueSort) : Except EvalCause ValueSort :=
  match operator.kind with
  | .bang => .ok bool
  | .minus => if right = number then .ok number else .error .operandNotNumber
  | _ => .error (.unknownUnary operator.lexeme)

/-- The sort of what an operation on two numbers gives. -/
def onNumbers (result left right : ValueSort) : Except EvalCause ValueSort :=
  if left = number ∧ right = number then .ok result else .error .operandsNotNumbers

/-- The sort of a sum: both operands are of it. -/
def plus (left right : ValueSort) : Except EvalCause ValueSort :=
  if left = right ∧ (left = number ∨ left = str) then .ok left else .error .operandsNotAddable

/-- The sort of what a binary operator gives. -/
def applyBinary (operator : Token) (left right : ValueSort) : Except EvalCause ValueSort :=
  match operator.kind with
  | .plus => plus left right
  | .minus | .slash | .star => onNumbers number left right
  | .greater | .greaterEqual | .less | .lessEqual => onNumbers bool left right
  | .equalEqual | .bangEqual => .ok bool
  | _ => .error (.unknownBinary operator.lexeme)

end ValueSort

namespace Value

theorem sort_applyUnary (op : Token) (v : Value) : (v.applyUnary op).map sort = v.sort.applyUnary op := by
  unfold applyUnary ValueSort.applyUnary
  cases op.kind
  case minus => cases v <;> rfl
  all_goals rfl

theorem sort_onNumbers {operation : Binary64 → Binary64 → Value} {s : ValueSort}
    (h : ∀ x y, (operation x y).sort = s) (v w : Value) :
    (onNumbers operation v w).map sort = ValueSort.onNumbers s v.sort w.sort := by
  cases v with
  | number x =>
    cases w with
    | number y => exact congrArg Except.ok (h x y)
    | nil | bool b | str t => rfl
  | nil | bool b | str t => rfl

theorem sort_plus (v w : Value) : (plus v w).map sort = ValueSort.plus v.sort w.sort := by
  cases v <;> cases w <;> rfl

theorem sort_applyBinary (op : Token) (v w : Value) :
    (v.applyBinary op w).map sort = v.sort.applyBinary op w.sort := by
  unfold applyBinary ValueSort.applyBinary
  cases op.kind
  case plus => exact sort_plus v w
  case minus | slash | star | greater | greaterEqual | less | lessEqual =>
    refine sort_onNumbers ?_ v w
    intro x y
    rfl
  all_goals rfl

end Value

/-! ## Outlines -/

/-- A tree with the sorts of its literals in place of their values. -/
inductive Outline where
  | literal (s : ValueSort)
  | grouping (inner : Outline)
  | unary (operator : Token) (right : Outline)
  | binary (left : Outline) (operator : Token) (right : Outline)
deriving DecidableEq, Repr

/-- The sort an operator gives, or its refusal made a fault. -/
def sortAt (operator : Token) (answer : Except EvalCause ValueSort) : Except RuntimeError ValueSort :=
  answer.mapError fun cause => ⟨operator, cause.message⟩

namespace Outline

/-- The sort of a tree with this outline, or its fault. -/
def check : Outline → Except RuntimeError ValueSort
  | literal s => .ok s
  | grouping o => o.check
  | unary op o => o.check.bind fun s => sortAt op (s.applyUnary op)
  | binary l op r => l.check.bind fun s => r.check.bind fun t => sortAt op (s.applyBinary op t)

/-- What is assigned to the nodes, in post-order. -/
def assignment : Outline → List (Except RuntimeError ValueSort)
  | literal s => [(literal s).check]
  | grouping o => o.assignment ++ [(grouping o).check]
  | unary op o => o.assignment ++ [(unary op o).check]
  | binary l op r => l.assignment ++ r.assignment ++ [(binary l op r).check]

end Outline

namespace Expr

/-- The tree without the values of its literals. -/
def outline : Expr → Outline
  | literal v => .literal v.sort
  | grouping e => .grouping e.outline
  | unary op e => .unary op e.outline
  | binary l op r => .binary l.outline op r.outline

/-- Trees of the same shape with the same operators and, in the same places, literals of the same sort. -/
inductive Alike : Expr → Expr → Prop
  | literal {v w : Value} (h : v.sort = w.sort) : Alike (literal v) (literal w)
  | grouping {e e' : Expr} (h : Alike e e') : Alike (grouping e) (grouping e')
  | unary {e e' : Expr} (op : Token) (h : Alike e e') : Alike (unary op e) (unary op e')
  | binary {l l' r r' : Expr} (op : Token) (hl : Alike l l') (hr : Alike r r') :
      Alike (binary l op r) (binary l' op r')

section Alike

variable {e e' : Expr} (h : Alike e e')
include h

theorem Alike.outline_eq : e.outline = e'.outline := by
  induction h with
  | literal h => rw [outline, h, outline]
  | grouping _ ih => rw [outline, ih, outline]
  | unary op _ ih => rw [outline, ih, outline]
  | binary op _ _ ihl ihr => rw [outline, ihl, ihr, outline]

/-- The nodes in the same places are alike. -/
theorem Alike.subtrees : List.Forall₂ Alike e.subtrees e'.subtrees := by
  induction h with
  | literal h => exact .cons (.literal h) .nil
  | grouping h ih => exact List.rel_append ih (.cons (.grouping h) .nil)
  | unary op h ih => exact List.rel_append ih (.cons (.unary op h) .nil)
  | binary op hl hr ihl ihr => exact List.rel_append (List.rel_append ihl ihr) (.cons (.binary op hl hr) .nil)

end Alike

/-! ## Evaluation -/

/-- A computation that depends on the image of a result only, as far as its own image goes. -/
theorem map_bind_eq {ε α β γ δ : Type} {x : Except ε α} {f : α → Except ε β} {g : β → δ} {h : α → γ}
    {k : γ → Except ε δ} (hf : ∀ a, (f a).map g = k (h a)) : (x.bind f).map g = (x.map h).bind k := by
  cases x with
  | error fault => rfl
  | ok a => exact hf a

theorem map_faultAt {op : Token} {answer : Except EvalCause Value} {s : Except EvalCause ValueSort}
    (h : answer.map Value.sort = s) : (faultAt op answer).map Value.sort = sortAt op s := by
  subst h
  cases answer <;> rfl

/-- **The outline decides** the sort of the value, or the fault. -/
theorem eval_sort (e : Expr) : e.eval.map Value.sort = e.outline.check := by
  induction e with
  | literal v => rfl
  | grouping e ih => exact ih
  | unary op e ih =>
    rw [eval_unary, outline, Outline.check, ← ih]
    exact map_bind_eq fun v => map_faultAt (v.sort_applyUnary op)
  | binary l op r ihl ihr =>
    rw [eval_binary, outline, Outline.check, ← ihl, ← ihr]
    exact map_bind_eq fun v => map_bind_eq fun w => map_faultAt (v.sort_applyBinary op w)

theorem eval_sort_subtrees (e : Expr) :
    e.subtrees.map (fun u => u.eval.map Value.sort) = e.outline.assignment := by
  induction e with
  | literal v => rfl
  | grouping e ih => rw [subtrees, List.map_append, ih, List.map_singleton, eval_sort]; rfl
  | unary op e ih => rw [subtrees, List.map_append, ih, List.map_singleton, eval_sort]; rfl
  | binary l op r ihl ihr =>
    rw [subtrees, List.map_append, List.map_append, ihl, ihr, List.map_singleton, eval_sort]; rfl

/-- Two values of the same sort, or the same fault twice. -/
inductive EndAlike : Except RuntimeError Value → Except RuntimeError Value → Prop
  | value {v w : Value} (h : v.sort = w.sort) : EndAlike (.ok v) (.ok w)
  | fault (fault : RuntimeError) : EndAlike (.error fault) (.error fault)

theorem endAlike_iff {x y : Except RuntimeError Value} : EndAlike x y ↔ x.map Value.sort = y.map Value.sort := by
  constructor
  · rintro (h | _)
    · exact congrArg Except.ok h
    · rfl
  · intro h
    cases x with
    | error fault =>
      cases y <;> cases h
      exact .fault fault
    | ok v =>
      cases y with
      | error fault => cases h
      | ok w => exact .value (Except.ok.inj h)

theorem Alike.eval {e e' : Expr} (h : Alike e e') : EndAlike e.eval e'.eval := by
  rw [endAlike_iff, eval_sort, eval_sort, h.outline_eq]

/-- **Faults depend on sorts, never on values.**  Trees of one shape with the same operators, whose literals are of the
same sorts, end alike: both in values of one sort, or both in the same fault; and so do their nodes in the same places.
What a tree and its nodes end in, a sort or a fault, is what is assigned to them without looking at a value. -/
theorem eval_alike :
    (∀ e e' : Expr, Alike e e' → EndAlike e.eval e'.eval ∧
      List.Forall₂ (fun u u' => EndAlike u.eval u'.eval) e.subtrees e'.subtrees) ∧
    ∀ e : Expr, (∀ s, (∃ v, e.eval = .ok v ∧ v.sort = s) ↔ e.outline.check = .ok s) ∧
      (∀ fault, e.eval = .error fault ↔ e.outline.check = .error fault) ∧
      e.subtrees.map (fun u => u.eval.map Value.sort) = e.outline.assignment := by
  refine ⟨fun e e' h => ⟨h.eval, h.subtrees.imp fun _ _ => Alike.eval⟩, fun e => ⟨?_, ?_, eval_sort_subtrees e⟩⟩
  · intro s
    rw [← eval_sort]
    cases e.eval <;> simp [Except.map]
  · intro fault
    rw [← eval_sort]
    cases e.eval <;> simp [Except.map]

/-- The negation of a comparison of a quotient with a string. -/
def negatedComparison (x y : Binary64) (s : String) : Expr :=
  unary ⟨.minus, "-", none, 1⟩ (grouping
    (binary (binary (literal (.number x)) ⟨.slash, "/", none, 1⟩ (literal (.number y)))
      ⟨.equalEqual, "==", none, 2⟩ (literal (.str s))))

/-- **Whatever is compared**, a division by zero or one that has no value included, it is the negation that fails. -/
theorem eval_negatedComparison_alike :
    Alike (negatedComparison .nan (.signed false .zero) "") (negatedComparison (.signed true .infinity) .nan "x") ∧
    EndAlike (negatedComparison .nan (.signed false .zero) "").eval
      (negatedComparison (.signed true .infinity) .nan "x").eval ∧
    (negatedComparison .nan (.signed false .zero) "").eval =
      .error ⟨⟨.minus, "-", none, 1⟩, "Operand must be a number."⟩ := by
  have halike : Alike (negatedComparison .nan (.signed false .zero) "")
      (negatedComparison (.signed true .infinity) .nan "x") :=
    .unary _ (.grouping (.binary _ (.binary _ (.literal rfl) (.literal rfl)) (.literal rfl)))
  exact ⟨halike, (eval_alike.1 _ _ halike).1, rfl⟩

end Expr

end LoxCalc
