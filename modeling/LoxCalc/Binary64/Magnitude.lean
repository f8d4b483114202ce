/-!
# LoxCalc.Binary64.Magnitude — the magnitudes of the binary64 format and rounding to them

A magnitude is its position in the increasing list of all of them, from zero at `0` to infinity at
`2 ^ 63 - 2 ^ 52`; the position is also the bit pattern of the number without its sign.  Every finite magnitude
is a whole number of `Magnitude.steps` of `2 ^ (-1074)`, and infinity counts as `2 ^ 1024`, the number that would
come next.  `Magnitude.nearest` rounds a quotient of steps to the nearest magnitude, a tie to the even position.
-/

namespace LoxCalc

/-- A magnitude of the binary64 format, given by its position among all of them. -/
structure Magnitude where
  position : Nat
  position_le : position ≤ 0x7FF0000000000000
deriving DecidableEq, Repr

namespace Magnitude

def zero : Magnitude := ⟨0, by decide⟩

def infinity : Magnitude := ⟨0x7FF0000000000000, by decide⟩

instance : Inhabited Magnitude := ⟨zero⟩

/-- The magnitude at a position, infinity for every position beyond the list. -/
def ofPosition (k : Nat) : Magnitude := ⟨min k 0x7FF0000000000000, Nat.min_le_right ..⟩

def isInfinite (m : Magnitude) : Bool := m.position == 0x7FF0000000000000

def isZero (m : Magnitude) : Bool := m.position == 0

/-- How many magnitudes lie from a power of two up to below the next, `2 ^ 52`. -/
def binade : Nat := 0x10000000000000

/-- How many steps of `2 ^ (-1074)` the magnitude at a position measures. -/
def stepsAt (k : Nat) : Nat :=
  if k < binade then k else (binade + k % binade) * Nat.pow 2 (k / binade - 1)

/-- The size of a magnitude in steps of `2 ^ (-1074)`. -/
def steps (m : Magnitude) : Nat := stepsAt m.position

/-- The number one in steps of `2 ^ (-1074)`. -/
def stepsInOne : Nat := Nat.pow 2 1074

/-- The greatest position whose magnitude is at most `q` steps, the list continued beyond infinity. -/
def positionBelow (q : Nat) : Nat :=
  (q.log2 - 52) * binade + q / Nat.pow 2 (q.log2 - 52)

/-- The magnitude nearest to `num / den` steps, of two equally near ones the one at the even position. -/
def nearest (num den : Nat) : Magnitude :=
  let k := positionBelow (num / den)
  let middle := (stepsAt k + stepsAt (k + 1)) * den
  match compare (2 * num) middle with
  | .lt => ofPosition k
  | .gt => ofPosition (k + 1)
  | .eq => ofPosition (k + k % 2)

/-! ### Small facts -/

@[simp] theorem steps_zero : zero.steps = 0 := rfl

@[simp] theorem position_ofPosition (k : Nat) : (ofPosition k).position = min k 0x7FF0000000000000 := rfl

theorem stepsAt_of_lt {k : Nat} (h : k < binade) : stepsAt k = k := if_pos h

@[simp] theorem ofPosition_position (m : Magnitude) : ofPosition m.position = m := by
  cases m with
  | mk k h => simp [ofPosition, Nat.min_eq_left h]

end Magnitude

end LoxCalc
