import LoxCalc.CommandLine.Outcome

/-!
# LoxCalc.CommandLine.Prompt — answering line by line

The prompt is written before every line is asked for, also before the end of the input is found.  A line ends at a
line feed; a carriage return before it is dropped.  A line that is no text ends the conversation, a failure does not.
-/

namespace LoxCalc

/-- The failure for bytes that are no text. -/
def Failure.notText : Failure := .io "stream did not contain valid UTF-8"

namespace Prompt

/-- The bytes of a line without the carriage return at its end. -/
def dropReturn (line : List UInt8) : List UInt8 := if line.getLast? = some 13 then line.dropLast else line

/-- The lines of an input, after the bytes of a line read already, last first. -/
def linesFrom (begun : List UInt8) : List UInt8 → List (List UInt8)
  | [] => if begun.isEmpty then [] else [begun.reverse]
  | b :: bs => if b = 10 then dropReturn begun.reverse :: linesFrom [] bs else linesFrom (b :: begun) bs

/-- The lines of an input.  What follows the last line feed is a line if it is not empty, and keeps its return. -/
def linesOf (input : ByteArray) : List ByteArray := (linesFrom [] input.data.toList).map fun l => ⟨l.toArray⟩

/-- The prompt, before a line is asked for. -/
def ask (s : Settings) : Outcome := { stdout := s.prompt }

/-- The answer to a line; none if it is no text. -/
def answer? (s : Settings) (line : ByteArray) : Option Outcome :=
  (String.fromUTF8? line).map fun source => { Outcome.ofSource s source with exitStatus := 0 }

/-- The turns of a conversation about some lines. -/
def turns (s : Settings) : List ByteArray → List Outcome
  | [] => [ask s]
  | line :: rest =>
    match answer? s line with
    | some o => ask s :: o :: turns s rest
    | none => [ask s, .ofFailure .notText]

/-- A conversation about some lines. -/
def converse (s : Settings) (lines : List ByteArray) : Outcome := .inOrder (turns s lines)

end Prompt

end LoxCalc
