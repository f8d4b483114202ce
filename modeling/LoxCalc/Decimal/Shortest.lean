import LoxCalc.Decimal.Basic

/-!
# LoxCalc.Decimal.Shortest — the fewest digits that read back

A finite magnitude is a whole number of units of `10 ^ (-1074)`.  The reals that round to it form an interval, whose
ends belong to it iff the magnitude stands at an even position.  `Magnitude.shortest` looks for a power of ten with a
multiple in the interval, from powers greater than the magnitude downwards; a power that has one has it next to the
magnitude, below or above.  The first power found gives the fewest digits, and of two multiples the nearer is taken.
-/

namespace LoxCalc

/-- Which of two equally near decimals is taken. -/
inductive TieRule where
  | up
  | even
deriving DecidableEq, Repr

/-- The numbers that round to one magnitude, in units of `10 ^ (-1074)`; the ends are doubled to be whole. -/
structure RoundingInterval where
  lowTwice : Nat
  centre : Nat
  highTwice : Nat
  closed : Bool

namespace RoundingInterval

def contains (i : RoundingInterval) (x : Nat) : Bool :=
  if i.closed then i.lowTwice ≤ 2 * x && 2 * x ≤ i.highTwice else i.lowTwice < 2 * x && 2 * x < i.highTwice

/-- The multiple of `step` in the interval that is nearest to the centre, as a count of steps. -/
def nearestMultiple? (i : RoundingInterval) (tie : TieRule) (step : Nat) : Option Nat :=
  let below := i.centre / step
  let above := below + 1
  match i.contains (below * step), i.contains (above * step) with
  | false, false => none
  | true, false => some below
  | false, true => some above
  | true, true =>
    match compare (i.centre - below * step) (above * step - i.centre) with
    | .lt => some below
    | .gt => some above
    | .eq => match tie with
      | .up => some above
      | .even => some (if below % 2 = 0 then below else above)

/-- The first power of ten, from `10 ^ n` downwards, with a multiple in the interval; the centre itself is the last
resort. -/
def coarsest (i : RoundingInterval) (tie : TieRule) : (n : Nat) → Decimal
  | 0 => ⟨i.centre, -1074⟩
  | n + 1 => match i.nearestMultiple? tie (Nat.pow 10 (n + 1)) with
    | some k => ⟨k, (n + 1 : Nat) - 1074⟩
    | none => i.coarsest tie n

end RoundingInterval

namespace Magnitude

/-- A step of `2 ^ (-1074)` in units of `10 ^ (-1074)`. -/
def unitsInStep : Nat := Nat.pow 5 1074

/-- The numbers that round to a magnitude. -/
def interval (m : Magnitude) : RoundingInterval where
  lowTwice := (stepsAt (m.position - 1) + m.steps) * unitsInStep
  centre := m.steps * unitsInStep
  highTwice := (m.steps + stepsAt (m.position + 1)) * unitsInStep
  closed := m.position % 2 == 0

/-- The decimal of fewest digits that reads back as the magnitude, the nearest of them. -/
def shortest (m : Magnitude) (tie : TieRule) : Decimal :=
  if m.isZero then ⟨0, 0⟩
  else m.interval.coarsest tie ((m.interval.centre.log2 / 93 + 1) * 28)

/-- Whether a finite magnitude is a whole number. -/
def isWhole (m : Magnitude) : Bool := m.steps % stepsInOne == 0

/-- The whole number of a whole magnitude. -/
def wholePart (m : Magnitude) : Nat := m.steps / stepsInOne

end Magnitude

end LoxCalc
