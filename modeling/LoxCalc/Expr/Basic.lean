import LoxCalc.Token.Basic
import LoxCalc.Value

/-!
# LoxCalc.Expr.Basic — expression trees

A tree is a literal value, a grouping, or an operator token with its operands.  `Expr.ungrouped` takes all groupings
out of a tree; `Expr.height` counts the operators and groupings on its longest path.
-/

namespace LoxCalc

inductive Expr where
  | literal (value : Value)
  | grouping (inner : Expr)
  | unary (operator : Token) (right : Expr)
  | binary (left : Expr) (operator : Token) (right : Expr)
deriving DecidableEq, Repr

namespace Expr

/-- Whether a tree is an operator with its operands. -/
def isCompound : Expr → Bool
  | literal _ => false
  | grouping _ => false
  | unary .. => true
  | binary .. => true

/-- The tree without its groupings. -/
def ungrouped : Expr → Expr
  | literal v => literal v
  | grouping e => e.ungrouped
  | unary op e => unary op e.ungrouped
  | binary l op r => binary l.ungrouped op r.ungrouped

/-- The most operators and groupings on a path to a leaf. -/
def height : Expr → Nat
  | literal _ => 0
  | grouping e => e.height + 1
  | unary _ e => e.height + 1
  | binary l _ r => max l.height r.height + 1

end Expr

end LoxCalc
