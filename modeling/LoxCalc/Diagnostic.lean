import LoxCalc.Token.Basic

/-!
# LoxCalc.Diagnostic — what is reported about a text before it is evaluated

A lexical error knows its line, a syntax error also the place in that line.  The causes that arise here are
`LexicalCause` and `SyntaxCause`, each with its wording; a diagnostic keeps the wording, so that others can be
reported in the same form.
-/

namespace LoxCalc

/-! ### Causes -/

/-- Why a segment of a text is no token. -/
inductive LexicalCause where
  | unterminatedString
  | unexpectedCharacter (c : Char)
deriving DecidableEq, Repr

def LexicalCause.message : LexicalCause → String
  | .unterminatedString => "Unterminated string"
  | .unexpectedCharacter c => "Unexpected character: " ++ String.singleton c

/-- Why a list of tokens is no expression. -/
inductive SyntaxCause where
  | expectedExpression
  | expectedClosing
  | tooMuchNesting
deriving DecidableEq, Repr

def SyntaxCause.message : SyntaxCause → String
  | .expectedExpression => "Expect expression."
  | .expectedClosing => "Expect ')' after expression."
  | .tooMuchNesting => "Too much nesting."

/-! ### Located errors -/

structure LexicalError where
  line : Nat
  message : String
deriving DecidableEq, Repr

/-- Where in its line a syntax error lies: at the end of the tokens, or at a token. -/
inductive Location where
  | atEnd
  | atLexeme (lexeme : String)
deriving DecidableEq, Repr

structure SyntaxError where
  line : Nat
  location : Location
  message : String
deriving DecidableEq, Repr

/-- An error found before evaluation. -/
inductive Diagnostic where
  | lexical (error : LexicalError)
  | syntactic (error : SyntaxError)
deriving DecidableEq, Repr

/-! ### Their texts -/

def LexicalError.text (e : LexicalError) : String :=
  "[line " ++ toString e.line ++ "] Error: " ++ e.message

def Location.ofToken (t : Token) : Location :=
  if t.kind = .eof then .atEnd else .atLexeme t.lexeme

def Location.text : Location → String
  | .atEnd => "at end"
  | .atLexeme lexeme => "at '" ++ lexeme ++ "'"

/-- The syntax error with a message at a token. -/
def SyntaxError.atToken (t : Token) (message : String) : SyntaxError := ⟨t.line, .ofToken t, message⟩

def SyntaxError.text (e : SyntaxError) : String :=
  "[line " ++ toString e.line ++ "] Error " ++ e.location.text ++ ": " ++ e.message

namespace Diagnostic

def line : Diagnostic → Nat
  | lexical e => e.line
  | syntactic e => e.line

def message : Diagnostic → String
  | lexical e => e.message
  | syntactic e => e.message

def text : Diagnostic → String
  | lexical e => e.text
  | syntactic e => e.text

end Diagnostic

end LoxCalc
