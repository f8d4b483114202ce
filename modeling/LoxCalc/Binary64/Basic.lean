import LoxCalc.Binary64.Magnitude

/-!
# LoxCalc.Binary64.Basic — binary64 numbers, their arithmetic and their order

A number is not-a-number, or a sign and a magnitude; there is one not-a-number.  The four operations take the exact
result and round it once (`Magnitude.nearest`), and comparison is comparison of exact values, in which the two
zeros are equal and not-a-number is unordered.
-/

namespace LoxCalc

/-- A binary64 number.  All not-a-number bit patterns are one value. -/
inductive Binary64 where
  | nan
  | signed (negative : Bool) (magnitude : Magnitude)
deriving DecidableEq, Repr

namespace Binary64

instance : Inhabited Binary64 := ⟨.nan⟩

/-! ### Bit patterns -/

/-- The bit of a pattern that is set for negative numbers. -/
def signBit : Nat := 0x8000000000000000

/-- The number of a bit pattern: the sign bit, then the position of the magnitude; beyond infinity there is none. -/
def ofBits (bits : UInt64) : Binary64 :=
  let k := bits.toNat % signBit
  if h : k ≤ 0x7FF0000000000000 then .signed (signBit ≤ bits.toNat) ⟨k, h⟩ else .nan

/-- The bit pattern of a number, none for not-a-number, which has many. -/
def toBits? : Binary64 → Option UInt64
  | .nan => none
  | .signed negative m => some (UInt64.ofNat ((if negative then signBit else 0) + m.position))

/-! ### Classes -/

def isNaN : Binary64 → Bool
  | .nan => true
  | .signed .. => false

/-- Neither an infinity nor not-a-number. -/
def isFinite : Binary64 → Bool
  | .nan => false
  | .signed _ m => !m.isInfinite

/-- The value in steps of `2 ^ (-1074)`, none for not-a-number; the infinities stand at `± 2 ^ 1024`. -/
def steps? : Binary64 → Option Int
  | .nan => none
  | .signed negative m => some (if negative then -(m.steps : Int) else m.steps)

/-! ### Arithmetic -/

/-- The number nearest to a whole number of steps; zero takes the sign given. -/
def ofSteps (zeroNegative : Bool) (n : Int) : Binary64 :=
  if n = 0 then .signed zeroNegative .zero else .signed (decide (n < 0)) (.nearest n.natAbs 1)

def neg : Binary64 → Binary64
  | .nan => .nan
  | .signed negative m => .signed (!negative) m

/-- The sum.  An exact zero is positive unless both operands are negative zeros; opposite infinities have no sum. -/
def add : Binary64 → Binary64 → Binary64
  | .signed s a, .signed t b =>
    if a.isInfinite then
      if b.isInfinite && s != t then .nan else .signed s a
    else if b.isInfinite then .signed t b
    else .ofSteps (s && t) ((if s then -(a.steps : Int) else a.steps) + (if t then -(b.steps : Int) else b.steps))
  | _, _ => .nan

def sub (x y : Binary64) : Binary64 := x.add y.neg

/-- The product.  Zero times infinity has no value. -/
def mul : Binary64 → Binary64 → Binary64
  | .signed s a, .signed t b =>
    if a.isInfinite || b.isInfinite then
      if a.isZero || b.isZero then .nan else .signed (s != t) .infinity
    else .signed (s != t) (.nearest (a.steps * b.steps) Magnitude.stepsInOne)
  | _, _ => .nan

/-- The quotient.  A finite number divided by zero is infinite; `0 / 0` and `∞ / ∞` have no value. -/
def div : Binary64 → Binary64 → Binary64
  | .signed s a, .signed t b =>
    if a.isInfinite then
      if b.isInfinite then .nan else .signed (s != t) .infinity
    else if b.isInfinite then .signed (s != t) .zero
    else if b.isZero then
      if a.isZero then .nan else .signed (s != t) .infinity
    else .signed (s != t) (.nearest (a.steps * Magnitude.stepsInOne) b.steps)
  | _, _ => .nan

instance : Neg Binary64 := ⟨neg⟩
instance : Add Binary64 := ⟨add⟩
instance : Sub Binary64 := ⟨sub⟩
instance : Mul Binary64 := ⟨mul⟩
instance : Div Binary64 := ⟨div⟩

/-! ### Order -/

/-- Equality of numbers: the zeros are equal, not-a-number differs from everything. -/
def equal (x y : Binary64) : Bool :=
  match x.steps?, y.steps? with
  | some a, some b => a == b
  | _, _ => false

def lt (x y : Binary64) : Bool :=
  match x.steps?, y.steps? with
  | some a, some b => decide (a < b)
  | _, _ => false

def le (x y : Binary64) : Bool :=
  match x.steps?, y.steps? with
  | some a, some b => decide (a ≤ b)
  | _, _ => false

/-! ### Small facts -/

@[simp] theorem steps?_nan : steps? .nan = none := rfl

@[simp] theorem isNaN_signed (s : Bool) (m : Magnitude) : isNaN (.signed s m) = false := rfl

@[simp] theorem neg_neg_eq (x : Binary64) : neg (neg x) = x := by
  cases x <;> simp [neg]

theorem equal_symm (x y : Binary64) : x.equal y = y.equal x := by
  unfold equal
  cases x.steps? <;> cases y.steps? <;> simp [Bool.beq_comm]

@[simp] theorem equal_self (x : Binary64) : x.equal x = !x.isNaN := by
  cases x <;> simp [equal, isNaN, steps?]

end Binary64

end LoxCalc
