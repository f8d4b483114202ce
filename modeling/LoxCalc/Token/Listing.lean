import LoxCalc.Token.Basic
import LoxCalc.Decimal.Shortest
import LoxCalc.Text.Quoted

/-!
# LoxCalc.Token.Listing — one line per token

The kind, the lexeme in quoted form, the literal if there is one, and the line.  A number is listed with the fewest
digits that read back, written out without an exponent.
-/

namespace LoxCalc

/-- A number in a listing: the shortest digits, padded by zeros up to the unit. -/
def Binary64.listing : Binary64 → String
  | .nan => "NaN"
  | .signed negative m =>
    let size := if m.isInfinite then "inf" else String.ofList (m.shortest .up).positional
    if negative then "-" ++ size else size

def Literal.listing : Literal → String
  | .number x => x.listing
  | .str s => Quoted.encode s

/-- The line of a token in a listing. -/
def Token.listing (t : Token) : String :=
  let literal := match t.literal with
    | none => ""
    | some l => " " ++ l.listing
  t.kind.name ++ " " ++ Quoted.encode t.lexeme ++ literal ++ " @ line " ++ toString t.line

end LoxCalc
