import LoxCalc.Text.Unprintable

/-!
# LoxCalc.Text.Quoted — a text between quotes on one line

Quotes, backslashes and the controls NUL, TAB, LF, CR have short escapes; characters that show nothing or attach to
their neighbour are written by code point; all others stand for themselves.
-/

namespace LoxCalc.Quoted

/-- The digits of a number in base sixteen, in lower case. -/
def hexDigits (n : Nat) : List Char := Nat.toDigits 16 n

/-- The Hangul fillers, the only letters with the property Default_Ignorable_Code_Point: they show nothing. -/
def fillers : CodePoints := [(0x115F, 0x1160), (0x3164, 0x3164), (0xFFA0, 0xFFA0)]

/-- The halfwidth sound marks, the only letters with the property Grapheme_Extend: they take a place of their own. -/
def halfwidthSoundMarks : CodePoints := [(0xFF9E, 0xFF9F)]

/-- Whether a character is shown as nothing of its own. -/
def showsNothing (c : Char) : Bool := unprintable.contains c || fillers.contains c

/-- Whether a character is shown on the one before it. -/
def attaches (c : Char) : Bool := graphemeExtend.contains c && !halfwidthSoundMarks.contains c

/-- Whether a character stands for itself between quotes, the short escapes apart. -/
def isPlain (c : Char) : Bool :=
  if c.toNat < 0x80 then 0x20 ≤ c.toNat && c.toNat < 0x7F else !(showsNothing c || attaches c)

/-- How one character is written between the quotes. -/
def encodeChar (c : Char) : List Char :=
  match c with
  | '\x00' => ['\\', '0']
  | '\t' => ['\\', 't']
  | '\n' => ['\\', 'n']
  | '\r' => ['\\', 'r']
  | '"' => ['\\', '"']
  | '\\' => ['\\', '\\']
  | c => if isPlain c then [c] else '\\' :: 'u' :: '{' :: hexDigits c.toNat ++ ['}']

/-- The quoted form of a text. -/
def encode (s : String) : String := String.ofList ('"' :: s.toList.flatMap encodeChar ++ ['"'])

end LoxCalc.Quoted
