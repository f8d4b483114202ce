import LoxCalc.Json.Basic
import LoxCalc.Decimal.Shortest
import LoxCalc.Expr.Basic

/-!
# LoxCalc.Dump — tokens, values and expressions as JSON

A case that carries data is an object with the name of the case as its only key, a case without data is its name; the
fields of a token or an operator node are members in a fixed order.  A number is written with the fewest digits that
read back and with a point, or with an exponent if it is very large or very small; what is not finite is `null`.
-/

namespace LoxCalc

/-- A decimal as JSON spells it: with a point from `10 ^ (-5)` up to below `10 ^ 16`, else with an exponent. -/
def Decimal.jsonSpelling (d : Decimal) : List Char :=
  if -5 ≤ d.leadingExponent ∧ d.leadingExponent ≤ 15 then
    if 0 ≤ d.exponent then d.positional ++ ['.', '0'] else d.positional
  else d.scientific

def Binary64.toJson : Binary64 → Json String
  | .nan => .null
  | .signed negative m =>
    if m.isInfinite then .null
    else
      let size := (m.shortest .even).jsonSpelling
      .number (if negative then '-' :: size else size)

/-- A case with its data. -/
def tagged (name : String) (data : Json String) : Json String := .object [(name, data)]

def Literal.toJson : Literal → Json String
  | .number x => tagged "Number" x.toJson
  | .str s => tagged "Str" (.string s)

def Token.toJson (t : Token) : Json String :=
  .object [
    ("kind", .string t.kind.name),
    ("lexeme", .string t.lexeme),
    ("literal", match t.literal with
      | none => .null
      | some l => l.toJson),
    ("line", .number (Nat.toDigits 10 t.line))]

def Value.toJson : Value → Json String
  | .nil => .string "Nil"
  | .bool b => tagged "Bool" (.bool b)
  | .number x => tagged "Number" x.toJson
  | .str s => tagged "Str" (.string s)

def Expr.toJson : Expr → Json String
  | .literal v => tagged "Literal" v.toJson
  | .grouping e => tagged "Grouping" e.toJson
  | .unary operator e => tagged "Unary" (.object [("operator", operator.toJson), ("right", e.toJson)])
  | .binary l operator r =>
    tagged "Binary" (.object [("left", l.toJson), ("operator", operator.toJson), ("right", r.toJson)])

/-- A list of tokens as JSON. -/
def tokensJson (ts : List Token) : Json String := .array (ts.map Token.toJson)

end LoxCalc
