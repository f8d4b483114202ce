/-!
# LoxCalc.Json.Basic — JSON values, and texts between the quotes of JSON

The type of strings is a parameter: a value to be written holds texts, and a value that was read holds, for each
string, the text if its escapes denote one (`Json.Reader`).  A number is kept as it is spelled.

Written, a text escapes quotes, backslashes and the controls below U+0020, nothing else.  Read, the characters
between the quotes are raw characters or escapes; an escape `\u` gives a UTF-16 unit, and the units must pair up for the
string to denote a text.
-/

namespace LoxCalc

inductive Json (σ : Type) where
  | null
  | bool (b : Bool)
  | number (spelling : List Char)
  | string (s : σ)
  | array (items : List (Json σ))
  | object (members : List (σ × Json σ))
deriving Repr

namespace Json

instance {σ : Type} : Inhabited (Json σ) := ⟨.null⟩

/-- The four characters that may stand between the symbols of a text. -/
def isBlank (c : Char) : Bool := c == ' ' || c == '\t' || c == '\n' || c == '\r'

/-! ### Texts in quotes, written -/

def lowerHexDigit (n : Nat) : Char := (Nat.digitChar (n % 16))

/-- One character between quotes. -/
def escape (c : Char) : List Char :=
  match c with
  | '"' => ['\\', '"']
  | '\\' => ['\\', '\\']
  | '\x08' => ['\\', 'b']
  | '\t' => ['\\', 't']
  | '\n' => ['\\', 'n']
  | '\x0c' => ['\\', 'f']
  | '\r' => ['\\', 'r']
  | c =>
    if c.toNat < 0x20 then ['\\', 'u', '0', '0', lowerHexDigit (c.toNat / 16), lowerHexDigit c.toNat] else [c]

/-- A text between quotes. -/
def quote (s : String) : String := String.ofList ('"' :: s.toList.flatMap escape ++ ['"'])

/-! ### Texts in quotes, read -/

/-- What stands between quotes: characters, and UTF-16 units written as escapes. -/
inductive Unit16 where
  | char (c : Char)
  | unit (value : Nat)
deriving DecidableEq, Repr

/-- The value of a hexadecimal digit in either case. -/
def hexValue? (c : Char) : Option Nat :=
  if '0' ≤ c ∧ c ≤ '9' then some (c.toNat - '0'.toNat)
  else if 'a' ≤ c ∧ c ≤ 'f' then some (c.toNat - 'a'.toNat + 10)
  else if 'A' ≤ c ∧ c ≤ 'F' then some (c.toNat - 'A'.toNat + 10)
  else none

/-- The character of a one-letter escape. -/
def unescape? : Char → Option Char
  | '"' => some '"'
  | '\\' => some '\\'
  | '/' => some '/'
  | 'b' => some '\x08'
  | 'f' => some '\x0c'
  | 'n' => some '\n'
  | 'r' => some '\r'
  | 't' => some '\t'
  | _ => none

/-- The value of four hexadecimal digits. -/
def unit? (a b c d : Char) : Option Nat := do
  let a ← hexValue? a
  let b ← hexValue? b
  let c ← hexValue? c
  let d ← hexValue? d
  some (((a * 16 + b) * 16 + c) * 16 + d)

/-- What stands before the closing quote, after what was read already, and the text after the quote. -/
def unitsFrom (done : List Unit16) : List Char → Option (List Unit16 × List Char)
  | [] => none
  | '"' :: rest => some (done.reverse, rest)
  | '\\' :: 'u' :: a :: b :: c :: d :: rest =>
    match unit? a b c d with
    | some u => unitsFrom (.unit u :: done) rest
    | none => none
  | '\\' :: e :: rest =>
    match unescape? e with
    | some c => unitsFrom (.char c :: done) rest
    | none => none
  | c :: rest => if c == '\\' || c.toNat < 0x20 then none else unitsFrom (.char c :: done) rest

/-- The character of a pair of surrogates. -/
def pairChar (high low : Nat) : Char := Char.ofNat (0x10000 + (high - 0xD800) * 0x400 + (low - 0xDC00))

/-- The text that characters and units denote, if the surrogates among them pair up. -/
def textFrom (done : List Char) : List Unit16 → Option String
  | [] => some (String.ofList done.reverse)
  | .char c :: rest => textFrom (c :: done) rest
  | .unit high :: .unit low :: rest =>
    if 0xD800 ≤ high ∧ high < 0xDC00 then
      if 0xDC00 ≤ low ∧ low < 0xE000 then textFrom (pairChar high low :: done) rest else none
    else if 0xDC00 ≤ high ∧ high < 0xE000 then none
    else textFrom (Char.ofNat high :: done) (.unit low :: rest)
  | .unit u :: rest => if 0xD800 ≤ u ∧ u < 0xE000 then none else textFrom (Char.ofNat u :: done) rest

/-- The text between quotes, given what follows the opening one: none inside if it denotes no text. -/
def unquote? (cs : List Char) : Option (Option String × List Char) :=
  (unitsFrom [] cs).map fun (units, rest) => (textFrom [] units, rest)

theorem length_unitsFrom {done : List Unit16} {cs : List Char} {r : List Unit16 × List Char}
    (h : unitsFrom done cs = some r) : r.2.length < cs.length := by
  fun_induction unitsFrom done cs with
  | case2 => obtain rfl := Option.some.inj h; simp
  | _ => simp_all <;> omega

end Json

end LoxCalc
