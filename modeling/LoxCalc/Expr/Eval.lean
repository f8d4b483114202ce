import LoxCalc.Expr.Basic

/-!
# LoxCalc.Expr.Eval — the value of an expression

Operands are evaluated first, left before right and never skipped; then the operator is applied to their values.  A
fault is a refusal of the operator: it carries the operator token and the cause.
-/

namespace LoxCalc

/-- Why an operator refuses its operands. -/
inductive EvalCause where
  | operandNotNumber
  | operandsNotNumbers
  | operandsNotAddable
  | unknownUnary (lexeme : String)
  | unknownBinary (lexeme : String)
deriving DecidableEq, Repr

def EvalCause.message : EvalCause → String
  | .operandNotNumber => "Operand must be a number."
  | .operandsNotNumbers => "Operand must be numbers."
  | .operandsNotAddable => "Operands must be two numbers or two strings."
  | .unknownUnary lexeme => "Unknown unary operator '" ++ lexeme ++ "'."
  | .unknownBinary lexeme => "Unknown binary operator '" ++ lexeme ++ "'."

/-- A fault of an operator while an expression is evaluated. -/
structure RuntimeError where
  operator : Token
  message : String
deriving DecidableEq, Repr

def RuntimeError.text (e : RuntimeError) : String :=
  e.message ++ "\n[line " ++ toString e.operator.line ++ "]"

namespace Value

/-- A prefix operator applied to a value. -/
def applyUnary (operator : Token) (right : Value) : Except EvalCause Value :=
  match operator.kind with
  | .bang => .ok (.bool !right.isTruthy)
  | .minus => match right with
    | .number x => .ok (.number (-x))
    | _ => .error .operandNotNumber
  | _ => .error (.unknownUnary operator.lexeme)

/-- An operation on two numbers, refusing all other values. -/
def onNumbers (operation : Binary64 → Binary64 → Value) : Value → Value → Except EvalCause Value
  | number x, number y => .ok (operation x y)
  | _, _ => .error .operandsNotNumbers

/-- The sum of two numbers, or two strings joined. -/
def plus : Value → Value → Except EvalCause Value
  | number x, number y => .ok (.number (x + y))
  | str s, str t => .ok (.str (s ++ t))
  | _, _ => .error .operandsNotAddable

/-- A binary operator applied to two values. -/
def applyBinary (operator : Token) (left right : Value) : Except EvalCause Value :=
  match operator.kind with
  | .plus => plus left right
  | .minus => onNumbers (fun x y => .number (x - y)) left right
  | .slash => onNumbers (fun x y => .number (x / y)) left right
  | .star => onNumbers (fun x y => .number (x * y)) left right
  | .greater => onNumbers (fun x y => .bool (y.lt x)) left right
  | .greaterEqual => onNumbers (fun x y => .bool (y.le x)) left right
  | .less => onNumbers (fun x y => .bool (x.lt y)) left right
  | .lessEqual => onNumbers (fun x y => .bool (x.le y)) left right
  | .equalEqual => .ok (.bool (left.equal right))
  | .bangEqual => .ok (.bool !(left.equal right))
  | _ => .error (.unknownBinary operator.lexeme)

end Value

/-- The answer of an operator, its refusal made a fault. -/
def faultAt (operator : Token) (answer : Except EvalCause Value) : Except RuntimeError Value :=
  answer.mapError fun cause => ⟨operator, cause.message⟩

namespace Expr

/-- The value of an expression, or the first fault. -/
def eval : Expr → Except RuntimeError Value
  | literal v => .ok v
  | grouping e => e.eval
  | unary operator e => do
    let right ← e.eval
    faultAt operator (right.applyUnary operator)
  | binary l operator r => do
    let left ← l.eval
    let right ← r.eval
    faultAt operator (left.applyBinary operator right)

@[simp] theorem eval_literal (v : Value) : (literal v).eval = .ok v := rfl

@[simp] theorem eval_grouping (e : Expr) : (grouping e).eval = e.eval := rfl

end Expr

end LoxCalc
