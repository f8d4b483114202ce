import LoxCalc.Binary64.Basic

/-!
# LoxCalc.Token.Basic — tokens of the Lox language

A token is a kind, the text it was cut from, the value of that text if it is a number or a string, and a line.  The
kinds cover the whole language; expressions use the operators, the literals and three of the reserved words.
-/

namespace LoxCalc

/-- What a token is.  The kinds that begin with `kw` are the reserved words. -/
inductive TokenKind where
  | leftParen | rightParen | leftBrace | rightBrace | comma | dot | minus | plus | semicolon | slash | star
  | bang | bangEqual | equal | equalEqual | greater | greaterEqual | less | lessEqual
  | identifier | string | number
  | kwAnd | kwClass | kwElse | kwFalse | kwFun | kwFor | kwIf | kwNil | kwOr | kwPrint | kwReturn | kwSuper
  | kwThis | kwTrue | kwVar | kwWhile
  | eof
deriving DecidableEq, Repr, Inhabited

/-- The value a number or string token carries. -/
inductive Literal where
  | number (value : Binary64)
  | str (text : String)
deriving DecidableEq, Repr

structure Token where
  kind : TokenKind
  lexeme : String
  literal : Option Literal
  line : Nat
deriving DecidableEq, Repr

namespace TokenKind

/-- The name of a kind in listings. -/
def name : TokenKind → String
  | leftParen => "LeftParen" | rightParen => "RightParen" | leftBrace => "LeftBrace" | rightBrace => "RightBrace"
  | comma => "Comma" | dot => "Dot" | minus => "Minus" | plus => "Plus" | semicolon => "Semicolon"
  | slash => "Slash" | star => "Star" | bang => "Bang" | bangEqual => "BangEqual" | equal => "Equal"
  | equalEqual => "EqualEqual" | greater => "Greater" | greaterEqual => "GreaterEqual" | less => "Less"
  | lessEqual => "LessEqual" | identifier => "Identifier" | string => "String" | number => "Number"
  | kwAnd => "And" | kwClass => "Class" | kwElse => "Else" | kwFalse => "False" | kwFun => "Fun" | kwFor => "For"
  | kwIf => "If" | kwNil => "Nil" | kwOr => "Or" | kwPrint => "Print" | kwReturn => "Return" | kwSuper => "Super"
  | kwThis => "This" | kwTrue => "True" | kwVar => "Var" | kwWhile => "While" | eof => "EOF"

/-- Every kind, once. -/
def all : List TokenKind :=
  [leftParen, rightParen, leftBrace, rightBrace, comma, dot, minus, plus, semicolon, slash, star, bang, bangEqual,
    equal, equalEqual, greater, greaterEqual, less, lessEqual, identifier, string, number, kwAnd, kwClass, kwElse,
    kwFalse, kwFun, kwFor, kwIf, kwNil, kwOr, kwPrint, kwReturn, kwSuper, kwThis, kwTrue, kwVar, kwWhile, eof]

/-- The kind with a given name. -/
def ofName? (s : String) : Option TokenKind := all.find? (·.name == s)

/-- The reserved words of the language. -/
def reservedWords : List (String × TokenKind) :=
  [("and", kwAnd), ("class", kwClass), ("else", kwElse), ("false", kwFalse), ("for", kwFor), ("fun", kwFun),
    ("if", kwIf), ("nil", kwNil), ("or", kwOr), ("print", kwPrint), ("return", kwReturn), ("super", kwSuper),
    ("this", kwThis), ("true", kwTrue), ("var", kwVar), ("while", kwWhile)]

/-- The kind of a reserved word. -/
def keyword? (word : String) : Option TokenKind := reservedWords.lookup word

/-- The prefix operators. -/
def isPrefixOperator : TokenKind → Bool
  | bang | minus => true
  | _ => false

def isEquality : TokenKind → Bool
  | bangEqual | equalEqual => true
  | _ => false

def isComparison : TokenKind → Bool
  | greater | greaterEqual | less | lessEqual => true
  | _ => false

def isTerm : TokenKind → Bool
  | minus | plus => true
  | _ => false

def isFactor : TokenKind → Bool
  | slash | star => true
  | _ => false

/-- The reserved words that begin a statement. -/
def startsStatement : TokenKind → Bool
  | kwClass | kwFun | kwVar | kwFor | kwIf | kwWhile | kwPrint | kwReturn => true
  | _ => false

theorem mem_all (k : TokenKind) : k ∈ all := by cases k <;> decide

end TokenKind

namespace Token

/-- The token that ends every list, without text. -/
def eof (line : Nat) : Token := ⟨.eof, "", none, line⟩

@[simp] theorem kind_eof (line : Nat) : (eof line).kind = .eof := rfl

end Token

end LoxCalc
