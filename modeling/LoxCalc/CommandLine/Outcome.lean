import LoxCalc.Dump
import LoxCalc.Expr.Printer
import LoxCalc.Json.Printer
import LoxCalc.Program
import LoxCalc.Settings
import LoxCalc.Token.Listing

/-!
# LoxCalc.CommandLine.Outcome — what a run writes and how it ends

What is wrong with a program is part of the answer and goes to standard output; that a program cannot be reached goes
to standard error, as does tracing.
-/

namespace LoxCalc

/-- The two texts a run writes and its exit status. -/
structure Outcome where
  stdout : String := ""
  stderr : String := ""
  exitStatus : UInt8 := 0
deriving DecidableEq, Repr

namespace Outcome

/-- What the first writes and then the second, which decides the exit status. -/
def andThen (a b : Outcome) : Outcome := ⟨a.stdout ++ b.stdout, a.stderr ++ b.stderr, b.exitStatus⟩

theorem empty_andThen (o : Outcome) : andThen {} o = o := by
  rw [andThen, String.empty_append, String.empty_append]

/-- What all of them write in order; the last decides the exit status. -/
def inOrder (os : List Outcome) : Outcome :=
  ⟨String.join (os.map stdout), String.join (os.map stderr), (os.getLast?.map exitStatus).getD 0⟩

theorem inOrder_cons (o : Outcome) {os : List Outcome} (h : os ≠ []) : inOrder (o :: os) = o.andThen (inOrder os) := by
  obtain ⟨o', os, rfl⟩ := List.exists_cons_of_ne_nil h
  simp only [inOrder, andThen, List.map_cons, String.join_cons, List.getLast?_cons_cons]

/-- A run that writes one line. -/
def line (text : String) : Outcome := { stdout := text ++ "\n" }

/-- A run that traces something. -/
def traced (text : String) : Outcome := { stderr := text }

/-- A run that ends with a failure. -/
def ofFailure (f : Failure) : Outcome :=
  if f.concernsProgram then { stdout := f.text ++ "\n", exitStatus := f.exitStatus }
  else { stderr := f.text ++ "\n", exitStatus := f.exitStatus }

/-- A run that ends with a line or a failure. -/
def ofAnswer : Except Failure String → Outcome
  | .ok text => line text
  | .error f => ofFailure f

end Outcome

/-! ### Tracing -/

/-- The environment that tracing names first. -/
def Settings.trace (s : Settings) : Outcome :=
  if s.debug then .traced ("[debug] environment: " ++ s.envName ++ "\n") else {}

/-- What tracing shows of a text: its tokens, and its tree if it has one. -/
def traceOf (source : String) : String :=
  let tokens := (scan source).tokens.map fun t => "[debug] token: " ++ t.listing ++ "\n"
  let tree := match compile source with
    | .ok e => "[debug] ast: " ++ e.lispForm ++ "\n"
    | .error _ => ""
  String.join tokens ++ tree

/-- The trace of a text if tracing is on. -/
def Settings.traceOf (s : Settings) (source : String) : Outcome :=
  if s.debug then .traced (LoxCalc.traceOf source) else {}

namespace Settings

variable {s : Settings}

theorem trace_of_not_debug (h : s.debug = false) : s.trace = {} := by
  rw [trace, if_neg (by rw [h]; exact Bool.false_ne_true)]

theorem traceOf_of_not_debug (h : s.debug = false) (source : String) : s.traceOf source = {} := by
  rw [Settings.traceOf, if_neg (by rw [h]; exact Bool.false_ne_true)]

/-- Tracing writes nothing to standard output. -/
theorem stdout_trace_andThen (s : Settings) (o : Outcome) : (s.trace.andThen o).stdout = o.stdout := by
  unfold trace
  split <;> exact String.empty_append

end Settings

/-! ### Answers -/

/-- The answer to a text: its value, or its tree if the settings ask for it. -/
def Settings.answer (s : Settings) (source : String) : Except Failure String :=
  if s.printAst then (compile source).map Expr.lispForm else (run source).map Value.display

/-- Answering a text. -/
def Outcome.ofSource (s : Settings) (source : String) : Outcome :=
  (s.traceOf source).andThen (.ofAnswer (s.answer source))

/-- Showing the tree of a text. -/
def Outcome.ofTree (s : Settings) (json : Bool) (source : String) : Outcome :=
  (s.traceOf source).andThen
    (.ofAnswer ((compile source).map fun e => if json then e.toJson.pretty else e.lispForm))

/-- Listing the tokens of a text, and then what is wrong with them. -/
def Outcome.ofTokens (json : Bool) (source : String) : Outcome :=
  let found := scan source
  let listing :=
    if json then (tokensJson found.tokens).pretty ++ "\n"
    else String.join (found.tokens.map fun t => t.listing ++ "\n")
  Outcome.andThen { stdout := listing }
    (if found.errors.isEmpty then {} else .ofFailure (.diagnostics (found.errors.map .lexical)))

end LoxCalc
