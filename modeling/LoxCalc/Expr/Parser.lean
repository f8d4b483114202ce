import LoxCalc.Expr.Basic
import LoxCalc.Token.Ended
import LoxCalc.Diagnostic

/-!
# LoxCalc.Expr.Parser — reading an expression from tokens

Binary operators stand on four levels, each folded to the left; prefix operators bind tighter; a parenthesised
expression is an operand.  Two limits bound the trees: at most `maxNesting` prefix operators and parentheses inside
one another, and at most `maxHeight` nodes above one another.  What is left of the two is passed down as *room*: an
operand inside a prefix operator or parentheses has one less of both, an operand to the right of a binary operator
has one less of height for each operator before it on its level.

Reading stops at the first token that continues no expression; a fault keeps the tokens from its place on.
-/

namespace LoxCalc

/-- Most prefix operators and parentheses inside one another. -/
def maxNesting : Nat := 128

/-- Most nodes above one another. -/
def maxHeight : Nat := 1024

/-- Why reading stopped, and the tokens from there on. -/
structure SyntaxFault where
  cause : SyntaxCause
  rest : List Token
deriving DecidableEq, Repr

/-- Reading in a given room of height: a tree and the tokens after it, or a fault. -/
abbrev Reader := (height : Nat) → List Token → Except SyntaxFault (Expr × List Token)

namespace Reader

/-- No room is left. -/
def refuse : Reader := fun _ ts => .error ⟨.tooMuchNesting, ts⟩

/-- Reading one node further down. -/
def below (read : Reader) : Reader
  | 0, ts => refuse 0 ts
  | height + 1, ts => read height ts

/-- The operators of one level and their right operands, folded to the left onto a tree. -/
def foldRest (isOperator : TokenKind → Bool) (operand : Reader) :
    (height : Nat) → Expr → List Token → Except SyntaxFault (Expr × List Token)
  | _, left, [] => .ok (left, [])
  | 0, left, t :: ts => if isOperator t.kind then refuse 0 ts else .ok (left, t :: ts)
  | height + 1, left, t :: ts =>
    if isOperator t.kind then do
      let (right, rest) ← operand height ts
      foldRest isOperator operand height (.binary left t right) rest
    else .ok (left, t :: ts)

/-- One level of binary operators over the operands of the next. -/
def level (isOperator : TokenKind → Bool) (operand : Reader) : Reader := fun height ts => do
  let (left, rest) ← operand height ts
  foldRest isOperator operand height left rest

/-- The four levels of binary operators over given operands. -/
def levels (operand : Reader) : Reader :=
  level TokenKind.isEquality (level TokenKind.isComparison (level TokenKind.isTerm (level TokenKind.isFactor operand)))

/-- The closing parenthesis after a parenthesised expression. -/
def close (inner : Expr) : List Token → Except SyntaxFault (Expr × List Token)
  | [] => .error ⟨.expectedClosing, []⟩
  | t :: ts => if t.kind = .rightParen then .ok (.grouping inner, ts) else .error ⟨.expectedClosing, t :: ts⟩

/-- The value of a literal token. -/
def literalOf : Literal → Value
  | .number x => .number x
  | .str s => .str s

/-- An operand of a binary operator, given how to read the operand of a prefix operator and what is in parentheses. -/
def operandOf (prefixed parenthesised : Reader) : Reader
  | _, [] => .error ⟨.expectedExpression, []⟩
  | height, t :: ts =>
    match t.kind with
    | .bang | .minus => do
      let (right, rest) ← prefixed height ts
      .ok (.unary t right, rest)
    | .leftParen => do
      let (inner, rest) ← parenthesised height ts
      close inner rest
    | .kwFalse => .ok (.literal (.bool false), ts)
    | .kwTrue => .ok (.literal (.bool true), ts)
    | .kwNil => .ok (.literal .nil, ts)
    | .number | .string =>
      match t.literal with
      | some l => .ok (.literal (literalOf l), ts)
      | none => .error ⟨.expectedExpression, t :: ts⟩
    | _ => .error ⟨.expectedExpression, t :: ts⟩

/-- An operand in a given room of nesting. -/
def operand : (nesting : Nat) → Reader
  | 0 => operandOf refuse refuse
  | nesting + 1 => operandOf (below (operand nesting)) (below (levels (operand nesting)))

/-- An expression in a given room of nesting. -/
def expression (nesting : Nat) : Reader := levels (operand nesting)

end Reader

/-- The place of a fault: the first of its tokens, or the end. -/
def SyntaxFault.toError (f : SyntaxFault) (ending : Token) : SyntaxError :=
  .atToken (f.rest.headD ending) f.cause.message

namespace EndedTokens

/-- The expression that the tokens begin with. -/
def parse (ts : EndedTokens) : Except SyntaxError Expr :=
  match Reader.expression maxNesting maxHeight ts.body with
  | .ok (e, _) => .ok e
  | .error f => .error (f.toError ts.ending)

/-- The tokens from the next statement boundary on, given the token before them. -/
def toBoundary (previous : Token) : List Token → List Token
  | [] => []
  | t :: ts => if previous.kind = .semicolon ∨ t.kind.startsStatement then t :: ts else toBoundary t ts

/-- Past one token, and on to the next statement boundary: after a semicolon or before a reserved word that begins a
statement. -/
def synchronize (ts : EndedTokens) : EndedTokens :=
  match ts.body with
  | [] => ts
  | t :: rest => { ts with body := toBoundary t rest }

end EndedTokens

/-- The expression that a list of tokens begins with. -/
def parse (tokens : List Token) : Except SyntaxError Expr := (EndedTokens.ofList tokens).parse

end LoxCalc
