import LoxCalc.Binary64.Basic

/-!
# LoxCalc.Decimal.Basic — decimal numbers, their positional text, and numerals read as binary64

A `Decimal` is a coefficient times a power of ten.  `Decimal.positional` writes it without an exponent;
`Decimal.scientific` writes one digit before the point and an exponent.  `Binary64.ofNumeral` reads digits, before
and after a point, as the nearest binary64 number.
-/

namespace LoxCalc

/-- The number `coefficient * 10 ^ exponent`. -/
structure Decimal where
  coefficient : Nat
  exponent : Int
deriving DecidableEq, Repr

namespace Decimal

/-- The digits of the coefficient, most significant first; zero has one digit. -/
def digits (d : Decimal) : List Char := Nat.toDigits 10 d.coefficient

/-- The power of ten of the first digit. -/
def leadingExponent (d : Decimal) : Int := d.digits.length + d.exponent - 1

/-- The decimal written out: zeros up to the unit, or a point before the last digits. -/
def positional (d : Decimal) : List Char :=
  match d.exponent with
  | .ofNat zeros => d.digits ++ List.replicate zeros '0'
  | .negSucc n =>
    let places := n + 1
    let padded := List.replicate (places + 1 - d.digits.length) '0' ++ d.digits
    padded.take (padded.length - places) ++ '.' :: padded.drop (padded.length - places)

/-- One digit, a point before further ones, and the exponent with its sign. -/
def scientific (d : Decimal) : List Char :=
  let mantissa := match d.digits with
    | [] => []
    | [c] => [c]
    | c :: cs => c :: '.' :: cs
  mantissa ++ 'e' :: (if d.leadingExponent < 0 then '-' else '+') :: Nat.toDigits 10 d.leadingExponent.natAbs

end Decimal

namespace Binary64

/-- The binary64 number nearest to the numeral with the given digits before and after the point. -/
def ofNumeral (whole fraction : List Char) : Binary64 :=
  let digits := Nat.ofDigitChars 10 (whole ++ fraction) 0
  .signed false (.nearest (digits * Magnitude.stepsInOne) (Nat.pow 10 fraction.length))

end Binary64

end LoxCalc
