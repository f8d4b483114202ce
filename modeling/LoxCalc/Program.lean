import LoxCalc.Token.Scan
import LoxCalc.Expr.Parser
import LoxCalc.Expr.Eval

/-!
# LoxCalc.Program — from a text to its expression and its value

`compile` scans and parses a text and collects the diagnostics of both, the lexical ones first; the tokens are parsed
even if some segments were rejected.  `run` evaluates what `compile` gives.  A `Failure` says why there is no answer; it
has a text and an exit status.
-/

namespace LoxCalc

/-! ### Failures -/

inductive Failure where
  | diagnostics (ds : List Diagnostic)
  | runtime (e : RuntimeError)
  | fileNotFound (message : String)
  | io (message : String)
deriving DecidableEq, Repr

namespace Failure

/-- The text of a failure; diagnostics take a line each. -/
def text : Failure → String
  | diagnostics ds => "\n".intercalate (ds.map Diagnostic.text)
  | runtime e => e.text
  | fileNotFound message => "FileNotFoundError: " ++ message
  | io message => "IOError: " ++ message

/-- The exit status of a run that failed: bad data, a fault of the program, no access to it. -/
def exitStatus : Failure → UInt8
  | diagnostics _ => 65
  | runtime _ => 70
  | fileNotFound _ => 74
  | io _ => 74

/-- Whether a failure concerns the program text, and so is part of the answer, or the access to it. -/
def concernsProgram : Failure → Bool
  | diagnostics _ => true
  | runtime _ => true
  | fileNotFound _ => false
  | io _ => false

end Failure

/-! ### Compiling and running -/

/-- The expression a text holds, or everything that is wrong with it. -/
def compile (source : String) : Except Failure Expr :=
  let found := scan source
  let lexical := found.errors.map Diagnostic.lexical
  match parse found.tokens with
  | .ok e => if lexical.isEmpty then .ok e else .error (.diagnostics lexical)
  | .error e => .error (.diagnostics (lexical ++ [.syntactic e]))

/-- The value of the expression a text holds. -/
def run (source : String) : Except Failure Value := do
  let e ← compile source
  e.eval.mapError .runtime

end LoxCalc
