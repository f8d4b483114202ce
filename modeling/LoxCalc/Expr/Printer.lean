import LoxCalc.Expr.Basic

/-!
# LoxCalc.Expr.Printer — the two written forms of an expression

`Expr.lispForm` puts every operator in front of its operands in parentheses; `Expr.source` is infix text of the
language itself, with parentheses around every operand that is an operator with operands.  A number that no
numeral stands for is written as an expression with that value.
-/

namespace LoxCalc

/-- A number as an expression of the language. -/
def Binary64.source : Binary64 → String
  | .nan => "(0 / 0)"
  | .signed negative m =>
    if m.isInfinite then
      if negative then "(-1 / 0)" else "(1 / 0)"
    else if negative then "(-" ++ Binary64.display (.signed false m) ++ ")"
    else Binary64.display (.signed false m)

/-- A value as an expression of the language. -/
def Value.source : Value → String
  | .number x => x.source
  | .str s => "\"" ++ s ++ "\""
  | v => v.display

namespace Expr

/-- Operators in front of their operands, everything compound in parentheses. -/
def lispForm : Expr → String
  | literal v => v.display
  | grouping e => "(group " ++ e.lispForm ++ ")"
  | unary operator e => "(" ++ operator.lexeme ++ " " ++ e.lispForm ++ ")"
  | binary l operator r => "(" ++ operator.lexeme ++ " " ++ l.lispForm ++ " " ++ r.lispForm ++ ")"

/-- A text in parentheses if asked for. -/
def parenthesised (wanted : Bool) (text : String) : String := if wanted then "(" ++ text ++ ")" else text

/-- The expression as text of the language. -/
def source : Expr → String
  | literal v => v.source
  | grouping e => "(" ++ e.source ++ ")"
  | unary operator e => operator.lexeme ++ parenthesised e.isCompound e.source
  | binary l operator r =>
    parenthesised l.isCompound l.source ++ " " ++ operator.lexeme ++ " " ++ parenthesised r.isCompound r.source

end Expr

end LoxCalc
