import LoxCalc.Decimal.Shortest

/-!
# LoxCalc.Value — the values of the language

Values are nil, booleans, numbers and strings.  Only nil and `false` count as false.  Two values are equal if they
are of the same sort and hold equal things, numbers by `Binary64.equal`.
-/

namespace LoxCalc

inductive Value where
  | nil
  | bool (b : Bool)
  | number (x : Binary64)
  | str (s : String)
deriving DecidableEq, Repr

/-- A number as the language shows it: a whole number by all of its digits, any other by the fewest that read back. -/
def Binary64.display : Binary64 → String
  | .nan => "NaN"
  | .signed negative m =>
    let size :=
      if m.isInfinite then "Infinity"
      else if m.isWhole then String.ofList (Nat.toDigits 10 m.wholePart)
      else String.ofList (m.shortest .up).positional
    if negative then "-" ++ size else size

namespace Value

def isTruthy : Value → Bool
  | nil => false
  | bool b => b
  | number _ => true
  | str _ => true

/-- Equality in the language, which differs from identity on numbers alone. -/
def equal : Value → Value → Bool
  | nil, nil => true
  | bool a, bool b => a == b
  | number x, number y => x.equal y
  | str s, str t => s == t
  | _, _ => false

/-- The text a value is shown as. -/
def display : Value → String
  | nil => "nil"
  | bool b => if b then "true" else "false"
  | number x => x.display
  | str s => s

theorem equal_symm (a b : Value) : a.equal b = b.equal a := by
  cases a <;> cases b <;> simp [equal, Binary64.equal_symm, Bool.beq_comm]

end Value

end LoxCalc
