import LoxCalc.Proofs.CommandLine.Scripts

/-!
# LoxCalc.Proofs.CommandLine.Conversation — the prompt answers each line as a script of its own

The lines that are read one byte after the other are the pieces between the line feeds (`linesOf_eq`).  The answer to a
line is what a run of the line as a script writes to standard output (`answer?_eq`).  A conversation writes the prompt
and such an answer for one line after the other (`converse_append`), up to the end of the input or the first line that
is no text.
-/

namespace LoxCalc

namespace Prompt

/-! ## The lines of an input -/

/-- The lines that the pieces between line feeds are: a return before a line feed is no part of the line, and what
follows the last line feed is a line if it is not empty. -/
def ofPieces (pieces : List (List UInt8)) : List (List UInt8) :=
  pieces.dropLast.map dropReturn ++ pieces.getLast?.toList.filter (· ≠ [])

/-- The lines of an input, split at its line feeds. -/
def splitLines (input : ByteArray) : List ByteArray :=
  (ofPieces (input.data.toList.splitOn 10)).map fun l => ⟨l.toArray⟩

theorem ofPieces_cons (piece : List UInt8) {pieces : List (List UInt8)} (h : pieces ≠ []) :
    ofPieces (piece :: pieces) = dropReturn piece :: ofPieces pieces := by
  obtain ⟨p, ps, rfl⟩ := List.exists_cons_of_ne_nil h
  rfl

/-- Reading on after the beginning of a line gives the lines that this beginning and the rest are split into. -/
theorem linesFrom_eq (bytes : List UInt8) {begun : List UInt8} (h : (10 : UInt8) ∉ begun) :
    linesFrom begun bytes = ofPieces ((begun.reverse ++ bytes).splitOn 10) := by
  induction bytes generalizing begun with
  | nil =>
    rw [linesFrom, List.append_nil, List.splitOn_eq_singleton (by simpa using h)]
    cases begun <;> simp [ofPieces]
  | cons b bytes ih =>
    rw [linesFrom]
    split
    · rename_i hb
      -- a piece is complete, and the next line has no beginning yet
      rw [hb, List.splitOn_append_cons_self, List.splitOn_eq_singleton (by simpa using h), List.singleton_append,
        ofPieces_cons _ (List.splitOn_ne_nil _ _), ih List.not_mem_nil]
      rfl
    · rename_i hb
      rw [ih (by simpa [eq_comm] using ⟨hb, h⟩), List.reverse_cons, List.append_assoc, List.singleton_append]

/-- **The lines of an input** are the pieces between its line feeds. -/
theorem linesOf_eq (input : ByteArray) : linesOf input = splitLines input := by
  rw [linesOf, linesFrom_eq _ List.not_mem_nil]
  rfl

/-! ## Turns -/

theorem turns_ne_nil (s : Settings) (lines : List ByteArray) : turns s lines ≠ [] := by
  cases lines with
  | nil => exact List.cons_ne_nil _ _
  | cons line lines =>
    rw [turns]
    split <;> exact List.cons_ne_nil _ _

variable {s : Settings}

theorem converse_nil (s : Settings) : converse s [] = { stdout := s.prompt } := by
  simp [converse, turns, ask, Outcome.inOrder]

/-- **A turn** about a text writes the prompt and the answer, and the conversation goes on. -/
theorem converse_cons {line : ByteArray} {text : String} (h : answer? s line = some { stdout := text })
    (lines : List ByteArray) :
    converse s (line :: lines) = ({ stdout := s.prompt ++ text } : Outcome).andThen (converse s lines) := by
  rw [converse, turns, h, Outcome.inOrder_cons _ (List.cons_ne_nil _ _), Outcome.inOrder_cons _ (turns_ne_nil s lines),
    ← converse]
  simp [Outcome.andThen, ask, String.append_assoc]

/-- A line that is no text ends the conversation. -/
theorem converse_cons_of_no_text {line : ByteArray} (h : answer? s line = none) (lines : List ByteArray) :
    converse s (line :: lines) =
      { stdout := s.prompt, stderr := Failure.notText.text ++ "\n", exitStatus := 74 } := by
  rw [converse, turns, h]
  simp [Outcome.inOrder, ask, Outcome.ofFailure, Failure.notText, Failure.concernsProgram, Failure.exitStatus]

/-- **Turns about texts**, one after the other, before the rest of the conversation. -/
theorem converse_append {before : List ByteArray} {text : ByteArray → String}
    (h : ∀ line ∈ before, answer? s line = some { stdout := text line }) (lines : List ByteArray) :
    converse s (before ++ lines) =
      ({ stdout := String.join (before.map fun line => s.prompt ++ text line) } : Outcome).andThen
        (converse s lines) := by
  induction before with
  | nil =>
    rw [List.nil_append, List.map_nil]
    exact (Outcome.empty_andThen _).symm
  | cons line before ih =>
    rw [List.cons_append, converse_cons (h line List.mem_cons_self),
      ih fun line' hline' => h line' (List.mem_cons_of_mem _ hline')]
    simp [Outcome.andThen, String.append_assoc]

/-! ## Lines as scripts -/

/-- **The answer to a line** is what a run of it as a script writes. -/
theorem answer?_eq {line : ByteArray} {p : Path} (hdebug : s.debug = false) (hline : line.IsValidUTF8)
    (r : UntracedRun (.runScript p) (.file line) s.printAst) :
    answer? s line = some { stdout := r.outcome.stdout } := by
  obtain ⟨source, rfl⟩ : ∃ source : String, line = source.toUTF8 := ⟨⟨line, hline⟩, rfl⟩
  have hanswer : r.outcome = .ofAnswer (s.answer source) := r.outcome_runScript
  have hstderr : (Outcome.ofAnswer (s.answer source)).stderr = "" :=
    Outcome.stderr_ofAnswer fun f hf => s.concernsProgram_of_answer hf
  rw [answer?, fromUTF8?_toUTF8, Option.map_some, Outcome.ofSource_of_not_debug hdebug, hanswer]
  show some ({ stdout := _, stderr := (Outcome.ofAnswer (s.answer source)).stderr } : Outcome) = _
  rw [hstderr]

theorem answer?_eq_none {line : ByteArray} (hline : ¬ line.IsValidUTF8) : answer? s line = none := by
  rw [answer?, fromUTF8?_eq_none hline, Option.map_none]

end Prompt

/-- A run at the prompt without tracing is the conversation about the lines of its input. -/
theorem FileTree.invoke_prompt {t : FileTree} {i : Invocation}
    (hasked : Request.ofArguments i.arguments = .run .prompt) (hdebug : (t.settings i).debug = false) :
    t.invoke i = (t, Prompt.converse (t.settings i) (Prompt.splitLines i.stdin)) := by
  rw [invoke_of_run hasked]
  simp only [runCommand, Command.reply, Settings.trace_of_not_debug hdebug, Outcome.empty_andThen, Prompt.linesOf_eq]

/-- **The prompt answers each line as a script of its own.**  Without tracing, a run at the prompt writes for each line
the prompt and what any run of a script that consists of the line writes to standard output, given that this run does
not trace either and asks for trees if the other does; and then the prompt once more.  The first line that is no text
ends it with a failure, after the prompt for this line. -/
theorem prompt_answers_as_scripts (t : FileTree) (i : Invocation)
    (hasked : Request.ofArguments i.arguments = .run .prompt) (hdebug : (t.settings i).debug = false)
    {path : ByteArray → Path}
    (script : (line : ByteArray) → UntracedRun (.runScript (path line)) (.file line) (t.settings i).printAst) :
    ((∀ line ∈ Prompt.splitLines i.stdin, line.IsValidUTF8) →
      t.invoke i = (t,
        { stdout := String.join ((Prompt.splitLines i.stdin).map fun line =>
            (t.settings i).prompt ++ (script line).outcome.stdout) ++ (t.settings i).prompt })) ∧
    ∀ before line after, Prompt.splitLines i.stdin = before ++ line :: after →
      (∀ line ∈ before, line.IsValidUTF8) → ¬ line.IsValidUTF8 →
      t.invoke i = (t,
        { stdout := String.join (before.map fun line =>
            (t.settings i).prompt ++ (script line).outcome.stdout) ++ (t.settings i).prompt
          stderr := "IOError: stream did not contain valid UTF-8\n"
          exitStatus := 74 }) := by
  have hanswers {lines : List ByteArray} (h : ∀ line ∈ lines, line.IsValidUTF8) : ∀ line ∈ lines,
      Prompt.answer? (t.settings i) line = some { stdout := (script line).outcome.stdout } :=
    fun line hline => Prompt.answer?_eq hdebug (h line hline) (script line)
  rw [FileTree.invoke_prompt hasked hdebug]
  refine ⟨fun h => ?_, fun before line after hlines hbefore hline => ?_⟩
  · have hconverse := Prompt.converse_append (hanswers h) []
    rw [List.append_nil, Prompt.converse_nil] at hconverse
    rw [hconverse, Outcome.andThen, String.empty_append]
  · rw [hlines, Prompt.converse_append (hanswers hbefore),
      Prompt.converse_cons_of_no_text (Prompt.answer?_eq_none hline), Outcome.andThen, String.empty_append]
    rfl

/-- A value before a return, a fault, a line that is no text, and a line that is not reached. -/
def conversingRun : Invocation where
  arguments := []
  stdin := ⟨#[49, 43, 50, 13, 10, 45, 110, 105, 108, 10, 255, 10, 51]⟩

/-- **A conversation** that ends at a line that is no text. -/
theorem conversingRun_answers :
    (Request.ofArguments conversingRun.arguments = .run .prompt ∧
      ((FileTree.mk []).settings conversingRun).debug = false) ∧
    (FileTree.mk []).invoke conversingRun = (FileTree.mk [],
      { stdout := "> 3\n> Operand must be a number.\n[line 1]\n> "
        stderr := "IOError: stream did not contain valid UTF-8\n"
        exitStatus := 74 }) := by
  have hasked : Request.ofArguments conversingRun.arguments = .run .prompt := rfl
  have hsettings : (FileTree.mk []).settings conversingRun = { envName := "default" } := rfl
  have hdebug : ((FileTree.mk []).settings conversingRun).debug = false := by rw [hsettings]
  have hlines : Prompt.splitLines conversingRun.stdin =
      ["1+2".toUTF8, "-nil".toUTF8] ++ ⟨#[255]⟩ :: ["3".toUTF8] := rfl
  have hprompt : ((FileTree.mk []).settings conversingRun).prompt = "> " := by rw [hsettings]
  have hprintAst : ((FileTree.mk []).settings conversingRun).printAst = false := by rw [hsettings]
  refine ⟨⟨hasked, hdebug⟩, ?_⟩
  rw [(prompt_answers_as_scripts (FileTree.mk []) conversingRun hasked hdebug fun line =>
      .onScript ["script"] (by decide +kernel) rfl line _).2 _ _ _ hlines ?_ (by decide +kernel), hprompt]
  · simp only [List.map_cons, List.map_nil, UntracedRun.outcome_runScript, hprintAst]
    rw [Prod.mk.injEq, Outcome.mk.injEq]
    exact ⟨rfl, by decide +kernel, rfl, rfl⟩
  · intro line hline
    rcases hline with _ | ⟨_, _ | ⟨_, ⟨⟩⟩⟩
    · exact String.isValidUTF8 _
    · exact String.isValidUTF8 _

end LoxCalc
