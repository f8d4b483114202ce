import LoxCalc.Proofs.CommandLine.SavedSettings
import LoxCalc.Proofs.Expr.OperandFaults

/-!
# LoxCalc.Proofs.CommandLine.Scripts — what runs without tracing write about a script

Everything that is wrong with a text before it is evaluated is listed in order (`diagnosticsOf`): what scanning rejects,
then at most one syntax error.  An `UntracedRun` of a command writes only its answer, and what it answers to a script
depends on nothing but what it sees there and whether trees are asked for (`UntracedRun.outcome_runScript`).
-/

namespace LoxCalc

/-! ## What is wrong with a text -/

/-- What scanning rejects, in order. -/
def lexicalErrors (source : String) : List Diagnostic := (scan source).errors.map .lexical

/-- Why the tokens are no expression; nothing if they are one. -/
def syntaxErrors (source : String) : List Diagnostic :=
  match parse (scan source).tokens with
  | .ok _ => []
  | .error e => [.syntactic e]

/-- Everything that is wrong with a text before it is evaluated. -/
def diagnosticsOf (source : String) : List Diagnostic := lexicalErrors source ++ syntaxErrors source

/-- Diagnostics on lines of their own. -/
def Diagnostic.lines (ds : List Diagnostic) : String := String.join (ds.map fun d => d.text ++ "\n")

theorem syntaxErrors_cases (source : String) :
    syntaxErrors source = [] ∨ ∃ e, syntaxErrors source = [.syntactic e] := by
  unfold syntaxErrors
  split
  · exact .inl rfl
  · exact .inr ⟨_, rfl⟩

/-- A text that is not compiled fails with all its diagnostics, and has some. -/
theorem compile_eq_error_iff {source : String} {f : Failure} :
    compile source = .error f ↔ diagnosticsOf source ≠ [] ∧ f = .diagnostics (diagnosticsOf source) := by
  cases hp : parse (scan source).tokens with
  | error e =>
    simp only [compile, diagnosticsOf, syntaxErrors, lexicalErrors, hp, Except.error.injEq, eq_comm (b := f)]
    simp
  | ok e =>
    simp only [compile, diagnosticsOf, syntaxErrors, lexicalErrors, hp, List.append_nil]
    by_cases herrors : (scan source).errors = []
    · simp [herrors]
    · rw [if_neg (by simpa using herrors), Except.error.injEq, eq_comm]
      simp [herrors]

theorem compile_of_diagnosticsOf_ne_nil {source : String} (h : diagnosticsOf source ≠ []) :
    compile source = .error (.diagnostics (diagnosticsOf source)) := compile_eq_error_iff.2 ⟨h, rfl⟩

theorem exists_compile_eq_ok {source : String} (h : diagnosticsOf source = []) : ∃ e, compile source = .ok e := by
  cases hc : compile source with
  | ok e => exact ⟨e, rfl⟩
  | error f => exact absurd h (compile_eq_error_iff.1 hc).1

/-- Texts with something between them and at the end have it behind each of them. -/
theorem intercalate_append_eq_join (separator text : String) (texts : List String) :
    separator.intercalate (text :: texts) ++ separator = String.join ((text :: texts).map (· ++ separator)) := by
  induction texts generalizing text with
  | nil => simp
  | cons text' texts ih =>
    rw [String.intercalate_cons_cons, String.append_assoc, ih, List.map_cons (l := text' :: texts), String.join_cons]

theorem Failure.text_diagnostics (ds : List Diagnostic) :
    (Failure.diagnostics ds).text = "\n".intercalate (ds.map Diagnostic.text) := rfl

/-- Diagnostics as they end a run stand on lines of their own. -/
theorem Diagnostic.lines_eq {ds : List Diagnostic} (h : ds ≠ []) :
    (Failure.diagnostics ds).text ++ "\n" = Diagnostic.lines ds := by
  obtain ⟨d, ds, rfl⟩ := List.exists_cons_of_ne_nil h
  rw [Failure.text_diagnostics, List.map_cons, intercalate_append_eq_join, ← List.map_cons, List.map_map, lines]
  rfl

/-! ## Answers to a text -/

/-- A failure to answer a text concerns the program. -/
theorem Settings.concernsProgram_of_answer {s : Settings} {source : String} {f : Failure}
    (h : s.answer source = .error f) : f.concernsProgram = true := by
  have hmap {α β : Type} {r : Except Failure α} {g : α → β} (hr : r.map g = .error f) : r = .error f := by
    cases r <;> cases hr
    rfl
  unfold answer at h
  split at h
  · obtain ⟨ds, rfl⟩ := compile_eq_error (hmap h)
    rfl
  · rcases run_eq_error_iff.1 (hmap h) with hc | ⟨e, fault, -, -, rfl⟩
    · obtain ⟨ds, rfl⟩ := compile_eq_error hc
      rfl
    · rfl

namespace Outcome

theorem ofFailure_of_concernsProgram {f : Failure} (h : f.concernsProgram = true) :
    ofFailure f = { stdout := f.text ++ "\n", exitStatus := f.exitStatus } := if_pos h

theorem ofFailure_diagnostics {ds : List Diagnostic} (h : ds ≠ []) :
    ofFailure (.diagnostics ds) = { stdout := Diagnostic.lines ds, exitStatus := 65 } := by
  rw [ofFailure_of_concernsProgram rfl, Diagnostic.lines_eq h]
  rfl

theorem stderr_ofAnswer {r : Except Failure String} (h : ∀ f, r = .error f → f.concernsProgram = true) :
    (ofAnswer r).stderr = "" := by
  cases r with
  | ok text => rfl
  | error f =>
    rw [ofAnswer, ofFailure_of_concernsProgram (h f rfl)]

theorem ofSource_of_not_debug {s : Settings} (h : s.debug = false) (source : String) :
    ofSource s source = ofAnswer (s.answer source) := by
  rw [ofSource, Settings.traceOf_of_not_debug h, empty_andThen]

theorem ofTree_of_not_debug {s : Settings} (h : s.debug = false) (json : Bool) (source : String) :
    ofTree s json source =
      ofAnswer ((compile source).map fun e => if json then e.toJson.pretty else e.lispForm) := by
  rw [ofTree, Settings.traceOf_of_not_debug h, empty_andThen]

end Outcome

/-! ## Runs without tracing -/

/-- A run of a command without tracing, with what it sees, and whether trees are asked for. -/
structure UntracedRun (c : Command) (seen : Sight) (printAst : Bool) where
  tree : FileTree
  invocation : Invocation
  asked : Request.ofArguments invocation.arguments = .run c
  sees : tree.seenBy invocation c = seen
  debug : (tree.settings invocation).debug = false
  asksForTree : (tree.settings invocation).printAst = printAst

/-- A run without tracing that only ends writes its end. -/
theorem FileTree.invoke_of_finish {t : FileTree} {i : Invocation} {c : Command} {o : Outcome}
    (hasked : Request.ofArguments i.arguments = .run c) (hdebug : (t.settings i).debug = false)
    (hreply : c.reply i.environment (t.settings i) (t.seenBy i c) = .finish o) : t.invoke i = (t, o) := by
  rw [invoke_of_run hasked, runCommand_of_finish hreply, Settings.trace_of_not_debug hdebug, Outcome.empty_andThen]

/-- What is at the end of a path that is no script: nothing, a directory, or a file that is no text. -/
def Sight.IsUnreadable : Sight → Prop
  | .nothing => True
  | .directory => True
  | .file content => ¬ content.IsValidUTF8

/-- A script that cannot be read is the failure of every command that needs it. -/
theorem exists_scriptText_eq_error {seen : Sight} (h : seen.IsUnreadable) (p : Path) : ∃ f : Failure,
    scriptText p seen = .error f ∧ f.concernsProgram = false ∧ f.exitStatus = 74 := by
  cases seen with
  | nothing => exact ⟨_, rfl, rfl, rfl⟩
  | directory => exact ⟨_, rfl, rfl, rfl⟩
  | file content =>
    refine ⟨.notText, ?_, rfl, rfl⟩
    rw [scriptText, fromUTF8?_eq_none h]

theorem scriptText_eq_ok (p : Path) (source : String) : scriptText p (.file source.toUTF8) = .ok source := by
  rw [scriptText, fromUTF8?_toUTF8]

namespace UntracedRun

variable {c : Command} {seen : Sight} {printAst json : Bool} {p : Path} {source : String}

/-- What the run wrote and how it ended. -/
def outcome (r : UntracedRun c seen printAst) : Outcome := (r.tree.invoke r.invocation).2

theorem outcome_of_finish (r : UntracedRun c seen printAst) (o : Outcome)
    (hreply : c.reply r.invocation.environment (r.tree.settings r.invocation) seen = .finish o) : r.outcome = o := by
  have hreply' : c.reply r.invocation.environment (r.tree.settings r.invocation) (r.tree.seenBy r.invocation c) =
      .finish o := by
    rw [r.sees]
    exact hreply
  rw [outcome, FileTree.invoke_of_finish r.asked r.debug hreply']

/-- A command that needs a script and finds one answers its text. -/
theorem outcome_of_text (r : UntracedRun c (.file source.toUTF8) printAst) (answer : String → Outcome)
    (hreply : c.reply r.invocation.environment (r.tree.settings r.invocation) (.file source.toUTF8) =
      .ofScript p (.file source.toUTF8) answer) : r.outcome = answer source := by
  refine r.outcome_of_finish _ ?_
  rw [hreply, Reply.ofScript, scriptText_eq_ok]

/-- A command that needs a script and finds none fails. -/
theorem outcome_of_no_text (r : UntracedRun c seen printAst) {f : Failure} (hf : scriptText p seen = .error f)
    (answer : String → Outcome) (hreply : c.reply r.invocation.environment (r.tree.settings r.invocation) seen =
      .ofScript p seen answer) : r.outcome = .ofFailure f := by
  refine r.outcome_of_finish _ ?_
  rw [hreply, Reply.ofScript, hf]

/-- **Running a script** answers its text. -/
theorem outcome_runScript (r : UntracedRun (.runScript p) (.file source.toUTF8) printAst) : r.outcome =
    .ofAnswer (if printAst then (compile source).map Expr.lispForm else (run source).map Value.display) := by
  rw [r.outcome_of_text _ rfl, Outcome.ofSource_of_not_debug r.debug, Settings.answer, r.asksForTree]

/-- **Showing the tree of a script**. -/
theorem outcome_showTree (r : UntracedRun (.showTree p false) (.file source.toUTF8) printAst) :
    r.outcome = .ofAnswer ((compile source).map Expr.lispForm) := by
  rw [r.outcome_of_text _ rfl, Outcome.ofTree_of_not_debug r.debug]
  rfl

/-- **Listing the tokens of a script**. -/
theorem outcome_listTokens (r : UntracedRun (.listTokens p json) (.file source.toUTF8) printAst) :
    r.outcome = .ofTokens json source := r.outcome_of_text _ rfl

end UntracedRun

/-! ## There are such runs -/

/-- A script in the root, beside the settings of the environment `default`. -/
def scriptTree (content : ByteArray) (printAst : Bool) : FileTree :=
  ⟨[(["script"], .file content),
    (["config.json", "default", ".lox"], .file (Settings.toText { envName := "default", printAst := printAst }).toUTF8),
    (["default", ".lox"], .directory), ([".lox"], .directory)]⟩

theorem settings_scriptTree (arguments : List String) (content : ByteArray) (printAst : Bool) :
    (scriptTree content printAst).settings { arguments := arguments, environment := { home := some "/".toUTF8 } } =
      { envName := "default", printAst := printAst } := by
  have hpath : Environment.settingsPath { home := some "/".toUTF8 } = ⟨"/.lox/default/config.json"⟩ := by decide +kernel
  have hsteps : (⟨"/.lox/default/config.json"⟩ : Path).steps = [".lox", "default", "config.json"] := by decide +kernel
  have hfollow : (scriptTree content printAst).follow [] [".lox", "default", "config.json"] =
      .ok ["config.json", "default", ".lox"] := rfl
  rw [FileTree.settings, hpath, FileTree.sight_of_follow (by decide) (by rw [hsteps]; exact hfollow) rfl]
  exact Environment.settings_toText _ _

/-- A run of a command on the script. -/
def UntracedRun.onScript {c : Command} (arguments : List String)
    (hasked : Request.ofArguments arguments = .run c) (hpath : c.looksAt { home := some "/".toUTF8 } = some ⟨"script"⟩)
    (content : ByteArray) (printAst : Bool) : UntracedRun c (.file content) printAst where
  tree := scriptTree content printAst
  invocation := { arguments := arguments, environment := { home := some "/".toUTF8 } }
  asked := hasked
  sees := by
    have hsteps : (⟨"script"⟩ : Path).steps = ["script"] := by decide +kernel
    have hfollow : (scriptTree content printAst).follow [] ["script"] = .ok ["script"] := rfl
    rw [FileTree.seenBy, hpath]
    exact FileTree.sight_of_follow (by decide) (by rw [hsteps]; exact hfollow) rfl
  debug := by rw [settings_scriptTree]
  asksForTree := by rw [settings_scriptTree]

end LoxCalc
