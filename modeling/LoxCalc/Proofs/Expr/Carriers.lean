import LoxCalc.Expr.Eval
import LoxCalc.Proofs.Decimal.Displayed

/-!
# LoxCalc.Proofs.Expr.Carriers — evaluation over any operators and numbers

Evaluation asks little of operators and numbers: of an operator its kind and its lexeme, of numbers the arithmetic and
the comparisons.  A `Carrier τ ν` answers this for operators of a type `τ` and numbers of a type `ν`; `ExprOver τ ν` are
the expressions with such operators and numbers, and `ExprOver.eval` evaluates them.

* A carrier may read as the tokens and the numbers of the language (`Carrier.Reads`).  An expression over it has the
  outcome of the expression that it reads as (`ExprOver.eval_read`), and every expression is read from one
  (`exists_read`).
* `Carrier.bits` are the bit patterns of numbers, each not-a-number a pattern of its own; which of them an operation
  without a value gives is left open (`reads_bits`).
-/

namespace LoxCalc

/-! ## Carriers -/

/-- Operators and numbers, with what evaluation asks of them. -/
structure Carrier (τ ν : Type) where
  kind : τ → TokenKind
  lexeme : τ → String
  neg : ν → ν
  add : ν → ν → ν
  sub : ν → ν → ν
  mul : ν → ν → ν
  div : ν → ν → ν
  equal : ν → ν → Bool
  lt : ν → ν → Bool
  le : ν → ν → Bool
  gt : ν → ν → Bool
  ge : ν → ν → Bool

/-- A value with numbers of any type. -/
inductive ValueOver (ν : Type) where
  | nil
  | bool (b : Bool)
  | number (x : ν)
  | str (s : String)
deriving DecidableEq, Repr

/-- An expression with operators and numbers of any types. -/
inductive ExprOver (τ ν : Type) where
  | literal (value : ValueOver ν)
  | grouping (inner : ExprOver τ ν)
  | unary (operator : τ) (right : ExprOver τ ν)
  | binary (left : ExprOver τ ν) (operator : τ) (right : ExprOver τ ν)

/-- A fault of an operator of any type. -/
structure FaultOver (τ : Type) where
  operator : τ
  message : String

variable {τ ν : Type}

namespace ValueOver

def isTruthy : ValueOver ν → Bool
  | nil => false
  | bool b => b
  | number _ => true
  | str _ => true

def equal (c : Carrier τ ν) : ValueOver ν → ValueOver ν → Bool
  | nil, nil => true
  | bool a, bool b => a == b
  | number x, number y => c.equal x y
  | str s, str t => s == t
  | _, _ => false

/-- A prefix operator applied to a value. -/
def applyUnary (c : Carrier τ ν) (operator : τ) (right : ValueOver ν) : Except EvalCause (ValueOver ν) :=
  match c.kind operator with
  | .bang => .ok (.bool !right.isTruthy)
  | .minus => match right with
    | .number x => .ok (.number (c.neg x))
    | _ => .error .operandNotNumber
  | _ => .error (.unknownUnary (c.lexeme operator))

/-- An operation on two numbers, refusing all other values. -/
def onNumbers (operation : ν → ν → ValueOver ν) : ValueOver ν → ValueOver ν → Except EvalCause (ValueOver ν)
  | number x, number y => .ok (operation x y)
  | _, _ => .error .operandsNotNumbers

/-- The sum of two numbers, or two strings joined. -/
def plus (c : Carrier τ ν) : ValueOver ν → ValueOver ν → Except EvalCause (ValueOver ν)
  | number x, number y => .ok (.number (c.add x y))
  | str s, str t => .ok (.str (s ++ t))
  | _, _ => .error .operandsNotAddable

/-- A binary operator applied to two values. -/
def applyBinary (c : Carrier τ ν) (operator : τ) (left right : ValueOver ν) : Except EvalCause (ValueOver ν) :=
  match c.kind operator with
  | .plus => plus c left right
  | .minus => onNumbers (fun x y => .number (c.sub x y)) left right
  | .slash => onNumbers (fun x y => .number (c.div x y)) left right
  | .star => onNumbers (fun x y => .number (c.mul x y)) left right
  | .greater => onNumbers (fun x y => .bool (c.gt x y)) left right
  | .greaterEqual => onNumbers (fun x y => .bool (c.ge x y)) left right
  | .less => onNumbers (fun x y => .bool (c.lt x y)) left right
  | .lessEqual => onNumbers (fun x y => .bool (c.le x y)) left right
  | .equalEqual => .ok (.bool (left.equal c right))
  | .bangEqual => .ok (.bool !(left.equal c right))
  | _ => .error (.unknownBinary (c.lexeme operator))

end ValueOver

/-- The answer of an operator, its refusal made a fault. -/
def FaultOver.at {α : Type} (operator : τ) (answer : Except EvalCause α) : Except (FaultOver τ) α :=
  answer.mapError fun cause => ⟨operator, cause.message⟩

namespace ExprOver

/-- The value of an expression, or the first fault. -/
def eval (c : Carrier τ ν) : ExprOver τ ν → Except (FaultOver τ) (ValueOver ν)
  | literal v => .ok v
  | grouping e => e.eval c
  | unary operator e => do
    let right ← e.eval c
    FaultOver.at operator (right.applyUnary c operator)
  | binary l operator r => do
    let left ← l.eval c
    let right ← r.eval c
    FaultOver.at operator (left.applyBinary c operator right)

/-- The expression without its groupings. -/
def ungrouped : ExprOver τ ν → ExprOver τ ν
  | literal v => literal v
  | grouping e => e.ungrouped
  | unary op e => unary op e.ungrouped
  | binary l op r => binary l.ungrouped op r.ungrouped

end ExprOver

/-! ## Reading -/

/-- The operators and numbers of a carrier read as tokens and numbers of the language, which answer alike. -/
structure Carrier.Reads (c : Carrier τ ν) (toToken : τ → Token) (toNumber : ν → Binary64) : Prop where
  kind : ∀ op, (toToken op).kind = c.kind op
  lexeme : ∀ op, (toToken op).lexeme = c.lexeme op
  neg : ∀ x, toNumber (c.neg x) = -toNumber x
  add : ∀ x y, toNumber (c.add x y) = toNumber x + toNumber y
  sub : ∀ x y, toNumber (c.sub x y) = toNumber x - toNumber y
  mul : ∀ x y, toNumber (c.mul x y) = toNumber x * toNumber y
  div : ∀ x y, toNumber (c.div x y) = toNumber x / toNumber y
  equal : ∀ x y, c.equal x y = (toNumber x).equal (toNumber y)
  lt : ∀ x y, c.lt x y = (toNumber x).lt (toNumber y)
  le : ∀ x y, c.le x y = (toNumber x).le (toNumber y)
  gt : ∀ x y, c.gt x y = (toNumber y).lt (toNumber x)
  ge : ∀ x y, c.ge x y = (toNumber y).le (toNumber x)

section Read

variable (toToken : τ → Token) (toNumber : ν → Binary64)

def ValueOver.read : ValueOver ν → Value
  | nil => .nil
  | bool b => .bool b
  | number x => .number (toNumber x)
  | str s => .str s

def ExprOver.read : ExprOver τ ν → Expr
  | literal v => .literal (v.read toNumber)
  | grouping e => .grouping e.read
  | unary op e => .unary (toToken op) e.read
  | binary l op r => .binary l.read (toToken op) r.read

/-- What evaluation gives, read. -/
def readOutcome : Except (FaultOver τ) (ValueOver ν) → Except RuntimeError Value
  | .ok v => .ok (v.read toNumber)
  | .error fault => .error ⟨toToken fault.operator, fault.message⟩

theorem ExprOver.ungrouped_read (e : ExprOver τ ν) :
    (e.read toToken toNumber).ungrouped = e.ungrouped.read toToken toNumber := by
  induction e with
  | literal v => rfl
  | grouping e ih => exact ih
  | unary op e ih => exact congrArg (Expr.unary (toToken op)) ih
  | binary l op r ihl ihr => rw [read, Expr.ungrouped, ihl, ihr, ungrouped, read]

theorem faultAt_read (op : τ) (answer : Except EvalCause (ValueOver ν)) :
    faultAt (toToken op) (answer.map (ValueOver.read toNumber)) =
      readOutcome toToken toNumber (FaultOver.at op answer) := by
  cases answer <;> rfl

end Read

section Reads

variable {c : Carrier τ ν} {toToken : τ → Token} {toNumber : ν → Binary64}

namespace ValueOver

theorem isTruthy_read (v : ValueOver ν) : (v.read toNumber).isTruthy = v.isTruthy := by
  cases v <;> rfl

theorem onNumbers_read {operation : ν → ν → ValueOver ν} {operation' : Binary64 → Binary64 → Value}
    (h : ∀ x y, operation' (toNumber x) (toNumber y) = (operation x y).read toNumber) (v w : ValueOver ν) :
    Value.onNumbers operation' (v.read toNumber) (w.read toNumber) = (onNumbers operation v w).map (read toNumber) := by
  cases v with
  | number x =>
    cases w with
    | number y => exact congrArg Except.ok (h x y)
    | _ => rfl
  | _ => rfl

variable (h : c.Reads toToken toNumber)
include h

theorem equal_read (v w : ValueOver ν) : (v.read toNumber).equal (w.read toNumber) = v.equal c w := by
  cases v with
  | number x =>
    cases w with
    | number y => exact (h.equal x y).symm
    | _ => rfl
  | _ => cases w <;> rfl

theorem plus_read (v w : ValueOver ν) :
    Value.plus (v.read toNumber) (w.read toNumber) = (plus c v w).map (read toNumber) := by
  cases v with
  | number x =>
    cases w with
    | number y => exact congrArg (Except.ok ∘ Value.number) (h.add x y).symm
    | _ => rfl
  | _ => cases w <;> rfl

theorem applyUnary_read (op : τ) (v : ValueOver ν) :
    (v.read toNumber).applyUnary (toToken op) = (v.applyUnary c op).map (read toNumber) := by
  unfold Value.applyUnary applyUnary
  rw [h.kind, h.lexeme]
  cases c.kind op with
  | bang => exact congrArg (fun b => Except.ok (Value.bool !b)) v.isTruthy_read
  | minus =>
    cases v with
    | number x => exact congrArg (Except.ok ∘ Value.number) (h.neg x).symm
    | _ => rfl
  | _ => rfl

theorem applyBinary_read (op : τ) (v w : ValueOver ν) :
    (v.read toNumber).applyBinary (toToken op) (w.read toNumber) = (v.applyBinary c op w).map (read toNumber) := by
  unfold Value.applyBinary applyBinary
  rw [h.kind, h.lexeme]
  cases c.kind op with
  | plus => exact plus_read h v w
  | minus => exact onNumbers_read (fun x y => congrArg Value.number (h.sub x y).symm) v w
  | slash => exact onNumbers_read (fun x y => congrArg Value.number (h.div x y).symm) v w
  | star => exact onNumbers_read (fun x y => congrArg Value.number (h.mul x y).symm) v w
  | greater => exact onNumbers_read (fun x y => congrArg Value.bool (h.gt x y).symm) v w
  | greaterEqual => exact onNumbers_read (fun x y => congrArg Value.bool (h.ge x y).symm) v w
  | less => exact onNumbers_read (fun x y => congrArg Value.bool (h.lt x y).symm) v w
  | lessEqual => exact onNumbers_read (fun x y => congrArg Value.bool (h.le x y).symm) v w
  | equalEqual => exact congrArg (Except.ok ∘ Value.bool) (equal_read h v w)
  | bangEqual => exact congrArg (fun b => Except.ok (Value.bool !b)) (equal_read h v w)
  | _ => rfl

end ValueOver

/-- **Evaluation commutes with reading.** -/
theorem ExprOver.eval_read (h : c.Reads toToken toNumber) (e : ExprOver τ ν) :
    (e.read toToken toNumber).eval = readOutcome toToken toNumber (e.eval c) := by
  induction e with
  | literal v => rfl
  | grouping e ih => exact ih
  | unary op e ih =>
    rw [read, Expr.eval, ih, eval]
    cases e.eval c with
    | error fault => rfl
    | ok v =>
      change faultAt (toToken op) ((v.read toNumber).applyUnary (toToken op)) = _
      rw [ValueOver.applyUnary_read h, faultAt_read]
      rfl
  | binary l op r ihl ihr =>
    rw [read, Expr.eval, ihl, ihr, eval]
    cases l.eval c with
    | error fault => rfl
    | ok v =>
      cases r.eval c with
      | error fault => rfl
      | ok w =>
        change faultAt (toToken op) ((v.read toNumber).applyBinary (toToken op) (w.read toNumber)) = _
        rw [ValueOver.applyBinary_read h, faultAt_read]
        rfl

end Reads

/-! ## Tokens and numbers -/

/-- The tokens and the numbers of the language. -/
def Carrier.numbers : Carrier Token Binary64 where
  kind := Token.kind
  lexeme := Token.lexeme
  neg x := -x
  add x y := x + y
  sub x y := x - y
  mul x y := x * y
  div x y := x / y
  equal := Binary64.equal
  lt := Binary64.lt
  le := Binary64.le
  gt x y := y.lt x
  ge x y := y.le x

theorem reads_numbers : Carrier.numbers.Reads id id where
  kind _ := rfl
  lexeme _ := rfl
  neg _ := rfl
  add _ _ := rfl
  sub _ _ := rfl
  mul _ _ := rfl
  div _ _ := rfl
  equal _ _ := rfl
  lt _ _ := rfl
  le _ _ := rfl
  gt _ _ := rfl
  ge _ _ := rfl

theorem ValueOver.exists_read (v : Value) : ∃ w : ValueOver Binary64, w.read id = v := by
  cases v with
  | nil => exact ⟨nil, rfl⟩
  | bool b => exact ⟨bool b, rfl⟩
  | number x => exact ⟨number x, rfl⟩
  | str s => exact ⟨str s, rfl⟩

/-- **Every expression is read** from one over the tokens and the numbers of the language. -/
theorem ExprOver.exists_read (e : Expr) : ∃ e' : ExprOver Token Binary64, e'.read id id = e := by
  induction e with
  | literal v =>
    obtain ⟨w, rfl⟩ := ValueOver.exists_read v
    exact ⟨literal w, rfl⟩
  | grouping e ih =>
    obtain ⟨e', rfl⟩ := ih
    exact ⟨grouping e', rfl⟩
  | unary op e ih =>
    obtain ⟨e', rfl⟩ := ih
    exact ⟨unary op e', rfl⟩
  | binary l op r ihl ihr =>
    obtain ⟨l', rfl⟩ := ihl
    obtain ⟨r', rfl⟩ := ihr
    exact ⟨binary l' op r', rfl⟩

/-! ## Bit patterns -/

namespace Binary64

variable {bits : UInt64}

/-- The number whose sign and position a bit pattern holds. -/
theorem ofBits_eq_signed {negative : Bool} {m : Magnitude}
    (h : bits.toNat = (if negative then signBit else 0) + m.position) : ofBits bits = .signed negative m := by
  have hm := m.position_le
  have hposition : bits.toNat % signBit = m.position := by
    cases negative <;> simp only [h, signBit, if_true, if_false, Bool.false_eq_true] <;> omega
  have hsign : decide (signBit ≤ bits.toNat) = negative := by
    cases negative <;> simp only [h, signBit, if_true, if_false, Bool.false_eq_true, decide_eq_true_eq,
      decide_eq_false_iff_not] <;> omega
  simp only [ofBits, hposition, hsign]
  exact dif_pos hm

theorem ofBits_eq_nan (h : ¬ bits.toNat % signBit ≤ 0x7FF0000000000000) : ofBits bits = .nan := dif_neg h

theorem toNat_add_signBit (bits : UInt64) :
    (bits + 0x8000000000000000).toNat = (bits.toNat + signBit) % (2 * signBit) := by
  rw [UInt64.toNat_add, signBit, show (0x8000000000000000 : UInt64).toNat = 0x8000000000000000 by decide]

/-- Adding the sign bit to a pattern keeps what is below it. -/
theorem mod_add_signBit (bits : UInt64) :
    (bits + 0x8000000000000000).toNat % signBit = bits.toNat % signBit := by
  rw [toNat_add_signBit]
  simp only [signBit]
  omega

/-- The opposite number has the other sign bit. -/
theorem ofBits_add_signBit (bits : UInt64) : ofBits (bits + 0x8000000000000000) = -ofBits bits := by
  by_cases hm : bits.toNat % signBit ≤ 0x7FF0000000000000
  · have hlt : bits.toNat < 2 * signBit := bits.toNat_lt
    have hbits : ofBits bits = .signed (decide (signBit ≤ bits.toNat)) ⟨bits.toNat % signBit, hm⟩ := dif_pos hm
    rw [hbits]
    change ofBits (bits + 0x8000000000000000) = .signed (!decide (signBit ≤ bits.toNat)) ⟨bits.toNat % signBit, hm⟩
    refine ofBits_eq_signed ?_
    rw [toNat_add_signBit]
    by_cases hs : signBit ≤ bits.toNat
    · simp only [hs, decide_true, Bool.not_true, if_false, Bool.false_eq_true]
      simp only [signBit] at *
      omega
    · simp only [hs, decide_false, Bool.not_false, if_true]
      simp only [signBit] at *
      omega
  · rw [ofBits_eq_nan hm, ofBits_eq_nan (by rw [mod_add_signBit]; exact hm)]
    rfl

/-- The bit pattern of a number, and a given one for not-a-number. -/
def toBits (nan : UInt64) (x : Binary64) : UInt64 := x.toBits?.getD nan

theorem ofBits_toBits {nan : UInt64} (hnan : ofBits nan = .nan) (x : Binary64) : ofBits (x.toBits nan) = x := by
  cases x with
  | nan => exact hnan
  | signed negative m =>
    refine ofBits_eq_signed ?_
    have hm := m.position_le
    cases negative <;> simp only [toBits, toBits?, Option.getD_some, UInt64.toNat_ofNat', signBit, if_true, if_false,
      Bool.false_eq_true] <;> omega

end Binary64

/-- The bit patterns of numbers.  Where the numbers have no answer, the not-a-number is chosen by the operator and its
operands. -/
def Carrier.bits (choose : TokenKind → UInt64 → UInt64 → UInt64) : Carrier Token UInt64 where
  kind := Token.kind
  lexeme := Token.lexeme
  neg a := a + 0x8000000000000000
  add a b := (Binary64.ofBits a + Binary64.ofBits b).toBits (choose .plus a b)
  sub a b := (Binary64.ofBits a - Binary64.ofBits b).toBits (choose .minus a b)
  mul a b := (Binary64.ofBits a * Binary64.ofBits b).toBits (choose .star a b)
  div a b := (Binary64.ofBits a / Binary64.ofBits b).toBits (choose .slash a b)
  equal a b := (Binary64.ofBits a).equal (Binary64.ofBits b)
  lt a b := (Binary64.ofBits a).lt (Binary64.ofBits b)
  le a b := (Binary64.ofBits a).le (Binary64.ofBits b)
  gt a b := (Binary64.ofBits b).lt (Binary64.ofBits a)
  ge a b := (Binary64.ofBits b).le (Binary64.ofBits a)

/-- **Bit patterns read as numbers**, whichever not-a-numbers are chosen. -/
theorem reads_bits {choose : TokenKind → UInt64 → UInt64 → UInt64}
    (hchoose : ∀ kind a b, Binary64.ofBits (choose kind a b) = .nan) : (Carrier.bits choose).Reads id .ofBits where
  kind _ := rfl
  lexeme _ := rfl
  neg := Binary64.ofBits_add_signBit
  add a b := Binary64.ofBits_toBits (hchoose .plus a b) (Binary64.ofBits a + Binary64.ofBits b)
  sub a b := Binary64.ofBits_toBits (hchoose .minus a b) (Binary64.ofBits a - Binary64.ofBits b)
  mul a b := Binary64.ofBits_toBits (hchoose .star a b) (Binary64.ofBits a * Binary64.ofBits b)
  div a b := Binary64.ofBits_toBits (hchoose .slash a b) (Binary64.ofBits a / Binary64.ofBits b)
  equal _ _ := rfl
  lt _ _ := rfl
  le _ _ := rfl
  gt _ _ := rfl
  ge _ _ := rfl

end LoxCalc
