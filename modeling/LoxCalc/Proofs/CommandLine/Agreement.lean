import LoxCalc.Proofs.CommandLine.Scripts
import LoxCalc.Proofs.Token.LineNumbers

/-!
# LoxCalc.Proofs.CommandLine.Agreement — the commands agree about every script

Running a script, showing its tree and listing its tokens are different ways through scanning, parsing and evaluation.
They find the same diagnostics (`agreeOn_script`): whatever is wrong with a text refuses the run and the tree alike, and
the listing ends with the part of it that scanning finds.  A script that cannot be read is the same failure everywhere.
-/

namespace LoxCalc

/-! ## Arguments -/

theorem Argument.of_eq_plain {argument : String} (h : argument.toList.head? ≠ some '-') :
    Argument.of argument = .plain argument := by
  unfold Argument.of
  split
  · rename_i heq; rw [heq] at h; exact absurd rfl h
  · rename_i heq; rw [heq] at h; exact absurd rfl h
  · rename_i heq; rw [heq] at h; exact absurd rfl h
  · rfl

/-- A path that is no option and no name of a command. -/
structure IsScriptArgument (argument : String) : Prop where
  no_option : argument.toList.head? ≠ some '-'
  no_command : argument ∉ ["tokens", "ast", "config", "help"]
  ne_empty : argument ≠ ""

namespace IsScriptArgument

variable {script : String} (h : IsScriptArgument script)
include h

theorem isEmpty_eq_false : script.isEmpty = false := by
  rw [Bool.eq_false_iff, ne_eq, String.isEmpty_iff]
  exact h.ne_empty

theorem ofArguments_run : Request.ofArguments [script] = .run (.runScript ⟨script⟩) := by
  have hnames := h.no_command
  simp only [List.mem_cons, List.not_mem_nil, or_false, not_or] at hnames
  obtain ⟨htokens, hast, hconfig, hhelp⟩ := hnames
  rw [Request.ofArguments, Request.ofArgumentsFrom, Argument.of_eq_plain h.no_option]
  simp only [Option.isSome_none, h.isEmpty_eq_false, Bool.or_self, htokens, hast, hconfig, hhelp, if_false,
    Bool.false_eq_true]
  rfl

theorem ofScriptCommand_eq (topic : Topic) (make : Path → Bool → Command) :
    Request.ofScriptCommand topic make none false [script] = .run (make ⟨script⟩ false) := by
  rw [Request.ofScriptCommand, Argument.of_eq_plain h.no_option]
  simp only [Option.isSome_none, h.isEmpty_eq_false, Bool.or_self, if_false, Bool.false_eq_true]
  rfl

theorem ofArguments_ast : Request.ofArguments ["ast", script] = .run (.showTree ⟨script⟩ false) :=
  h.ofScriptCommand_eq .tree .showTree

theorem ofArguments_tokens : Request.ofArguments ["tokens", script] = .run (.listTokens ⟨script⟩ false) :=
  h.ofScriptCommand_eq .tokens .listTokens

end IsScriptArgument

/-! ## The order of the source -/

/-- Each segment begins where those before it have ended. -/
theorem Segment.pairwise_located (segs : List Segment) : ∀ before : List Char,
    (∀ p ∈ located before segs, before <+: p.1) ∧
      (located before segs).Pairwise fun p q => p.1 ++ p.2.text <+: q.1 := by
  induction segs with
  | nil => exact fun _ => ⟨List.forall_mem_nil _, .nil⟩
  | cons s segs ih =>
    intro before
    obtain ⟨hbehind, hpairwise⟩ := ih (before ++ s.text)
    rw [located]
    refine ⟨List.forall_mem_cons.2 ⟨List.prefix_rfl, fun p hp => ?_⟩, .cons hbehind hpairwise⟩
    exact (List.prefix_append _ _).trans (hbehind p hp)

/-- The diagnostics are those of the segments of the text, in the order in which these stand one behind the other. -/
def InSourceOrder (source : String) (ds : List Diagnostic) : Prop :=
  ∃ segs : List Segment, Segment.IsSegmentation source.toList segs ∧
    (Segment.located [] segs).Pairwise (fun p q => p.1 ++ p.2.text <+: q.1) ∧
    ds = (Segment.located [] segs).filterMap fun p => (p.2.errorAfter source.toList p.1).map .lexical

theorem inSourceOrder_lexicalErrors (source : String) : InSourceOrder source (lexicalErrors source) := by
  have hsegs := Segment.isSegmentation_ofText source.toList
  have herrors := Scan.errors_ofSegments_located hsegs []
  refine ⟨_, hsegs, (Segment.pairwise_located _ _).2, ?_⟩
  rw [lexicalErrors, scan]
  exact (congrArg (List.map Diagnostic.lexical) herrors).trans List.map_filterMap

/-! ## Agreement -/

/-- Tokens on lines of their own. -/
def Token.lines (ts : List Token) : String := String.join (ts.map fun t => t.listing ++ "\n")

/-- How the commands agree about a text: `run` and `shown` run it, the second asking for the tree; `tree` shows its tree
and `tokens` lists its tokens. -/
structure AgreeOn (source : String) (run shown tree tokens : Outcome) : Prop where
  /-- A run ends well, with diagnostics or with a fault. -/
  run_exitStatus : run.exitStatus = 0 ∨ run.exitStatus = 65 ∨ run.exitStatus = 70
  /-- The tree is refused when the run is, in the same words. -/
  tree_of_refused : run.exitStatus = 65 → tree.exitStatus = 65 ∧ tree.stdout = run.stdout
  tree_of_not_refused : run.exitStatus ≠ 65 → tree.exitStatus = 0
  shown_eq : shown.stdout = tree.stdout ∧ shown.exitStatus = tree.exitStatus
  /-- All tokens are listed, the end as well, and then what scanning finds wrong. -/
  tokens_stdout : tokens.stdout = Token.lines (scan source).tokens ++ Diagnostic.lines (lexicalErrors source)
  eof_listed : ∃ body line, (scan source).tokens = body ++ [.eof line]
  tokens_exitStatus : tokens.exitStatus = if (scan source).errors = [] then 0 else 65
  refused_of_errors : (scan source).errors ≠ [] → run.exitStatus = 65
  /-- A refused run has diagnostics: what scanning finds wrong, in order, and then at most one syntax error. -/
  run_of_refused : run.exitStatus = 65 → ∃ more, (more = [] ∨ ∃ e, more = [.syntactic e]) ∧
    lexicalErrors source ++ more ≠ [] ∧ run.stdout = Diagnostic.lines (lexicalErrors source ++ more)
  in_source_order : InSourceOrder source (lexicalErrors source)
  stderr_eq : run.stderr = "" ∧ shown.stderr = "" ∧ tree.stderr = "" ∧ tokens.stderr = ""

section Answers

variable {source : String}

/-- A text with diagnostics is answered by them. -/
theorem ofAnswer_compile_of_refused (h : diagnosticsOf source ≠ []) (text : Expr → String) :
    Outcome.ofAnswer ((compile source).map text) =
      { stdout := Diagnostic.lines (diagnosticsOf source), exitStatus := 65 } := by
  rw [compile_of_diagnosticsOf_ne_nil h]
  exact Outcome.ofFailure_diagnostics h

theorem ofAnswer_run_of_refused (h : diagnosticsOf source ≠ []) (text : Value → String) :
    Outcome.ofAnswer ((run source).map text) =
      { stdout := Diagnostic.lines (diagnosticsOf source), exitStatus := 65 } := by
  rw [run, compile_of_diagnosticsOf_ne_nil h]
  exact Outcome.ofFailure_diagnostics h

/-- A text without diagnostics has a tree, and a value or a fault. -/
theorem ofAnswer_compile_of_not_refused (h : diagnosticsOf source = []) (text : Expr → String) :
    ∃ stdout, Outcome.ofAnswer ((compile source).map text) = { stdout := stdout } := by
  obtain ⟨e, he⟩ := exists_compile_eq_ok h
  rw [he]
  exact ⟨_, rfl⟩

theorem ofAnswer_run_of_not_refused (h : diagnosticsOf source = []) (text : Value → String) :
    ∃ stdout exitStatus, Outcome.ofAnswer ((run source).map text) = { stdout := stdout, exitStatus := exitStatus } ∧
      (exitStatus = 0 ∨ exitStatus = 70) := by
  obtain ⟨e, he⟩ := exists_compile_eq_ok h
  have hrun : run source = e.eval.mapError .runtime := by
    rw [run, he]
    rfl
  rw [hrun]
  cases e.eval with
  | ok v => exact ⟨_, 0, rfl, .inl rfl⟩
  | error fault => exact ⟨_, 70, Outcome.ofFailure_of_concernsProgram rfl, .inr rfl⟩

/-- A listing ends with what scanning finds wrong. -/
theorem ofTokens_eq (source : String) : Outcome.ofTokens false source =
    { stdout := Token.lines (scan source).tokens ++ Diagnostic.lines (lexicalErrors source)
      exitStatus := if (scan source).errors = [] then 0 else 65 } := by
  rw [Outcome.ofTokens, lexicalErrors]
  by_cases herrors : (scan source).errors = []
  · simp [herrors, Outcome.andThen, Token.lines, Diagnostic.lines]
  · have hlexical : (scan source).errors.map Diagnostic.lexical ≠ [] := by simpa using herrors
    simp [herrors, Outcome.andThen, Token.lines, Outcome.ofFailure_diagnostics hlexical]

end Answers

section Scripts

variable {script : Path} {source : String} {b b' : Bool}
  (run : UntracedRun (.runScript script) (.file source.toUTF8) false)
  (shown : UntracedRun (.runScript script) (.file source.toUTF8) true)
  (tree : UntracedRun (.showTree script false) (.file source.toUTF8) b)
  (tokens : UntracedRun (.listTokens script false) (.file source.toUTF8) b')

/-- **The commands agree** about a script that can be read. -/
theorem agreeOn_script : AgreeOn source run.outcome shown.outcome tree.outcome tokens.outcome := by
  have hshown : shown.outcome = tree.outcome := by
    rw [shown.outcome_runScript, tree.outcome_showTree, if_pos rfl]
  have hrun := run.outcome_runScript
  have htree := tree.outcome_showTree
  have htokens := tokens.outcome_listTokens
  rw [if_neg Bool.false_ne_true] at hrun
  rw [ofTokens_eq] at htokens
  have heof : ∃ body line, (scan source).tokens = body ++ [.eof line] :=
    ⟨_, _, Scan.tokens_eq_body_append 1 _⟩
  rw [hshown]
  by_cases hok : diagnosticsOf source = []
  · -- nothing is wrong before evaluation
    obtain ⟨stdout, htext⟩ := ofAnswer_compile_of_not_refused hok Expr.lispForm
    obtain ⟨stdout', exitStatus, hvalue, hexit⟩ := ofAnswer_run_of_not_refused hok Value.display
    have hlexical : (scan source).errors = [] := List.map_eq_nil_iff.1 (List.append_eq_nil_iff.1 hok).1
    have hne : exitStatus ≠ 65 := by rcases hexit with rfl | rfl <;> decide
    rw [hvalue] at hrun
    rw [htext] at htree
    rw [hrun, htree, htokens]
    exact
      { run_exitStatus := hexit.imp_right .inr
        tree_of_refused := fun h => absurd h hne
        tree_of_not_refused := fun _ => rfl
        shown_eq := ⟨rfl, rfl⟩
        tokens_stdout := rfl
        eof_listed := heof
        tokens_exitStatus := rfl
        refused_of_errors := fun h => absurd hlexical h
        run_of_refused := fun h => absurd h hne
        in_source_order := inSourceOrder_lexicalErrors source
        stderr_eq := ⟨rfl, rfl, rfl, rfl⟩ }
  · -- everything that needs a tree ends with the same diagnostics
    rw [ofAnswer_run_of_refused hok] at hrun
    rw [ofAnswer_compile_of_refused hok] at htree
    rw [hrun, htree, htokens]
    exact
      { run_exitStatus := .inr (.inl rfl)
        tree_of_refused := fun _ => ⟨rfl, rfl⟩
        tree_of_not_refused := fun h => absurd rfl h
        shown_eq := ⟨rfl, rfl⟩
        tokens_stdout := rfl
        eof_listed := heof
        tokens_exitStatus := rfl
        refused_of_errors := fun _ => rfl
        run_of_refused := fun _ => ⟨syntaxErrors source, syntaxErrors_cases source, hok, rfl⟩
        in_source_order := inSourceOrder_lexicalErrors source
        stderr_eq := ⟨rfl, rfl, rfl, rfl⟩ }

end Scripts

/-- **The commands agree about every script.**  Given a path that is neither empty nor an option or the name of a
command, the three command lines ask for a run of the script, its tree and its tokens.  Whatever text the script holds,
the runs without tracing agree about it; if it cannot be read, they all fail in the same words. -/
theorem commands_agree {script : String} (h : IsScriptArgument script) :
    (Request.ofArguments [script] = .run (.runScript ⟨script⟩) ∧
      Request.ofArguments ["ast", script] = .run (.showTree ⟨script⟩ false) ∧
      Request.ofArguments ["tokens", script] = .run (.listTokens ⟨script⟩ false)) ∧
    (∀ (source : String) (b b' : Bool) (run : UntracedRun (.runScript ⟨script⟩) (.file source.toUTF8) false)
      (shown : UntracedRun (.runScript ⟨script⟩) (.file source.toUTF8) true)
      (tree : UntracedRun (.showTree ⟨script⟩ false) (.file source.toUTF8) b)
      (tokens : UntracedRun (.listTokens ⟨script⟩ false) (.file source.toUTF8) b'),
      AgreeOn source run.outcome shown.outcome tree.outcome tokens.outcome) ∧
    ∀ seen : Sight, seen.IsUnreadable → ∃ message : String, ∀ (b b' b'' : Bool)
      (run : UntracedRun (.runScript ⟨script⟩) seen b) (tree : UntracedRun (.showTree ⟨script⟩ false) seen b')
      (tokens : UntracedRun (.listTokens ⟨script⟩ false) seen b''),
      run.outcome = { stderr := message, exitStatus := 74 } ∧ tree.outcome = { stderr := message, exitStatus := 74 } ∧
        tokens.outcome = { stderr := message, exitStatus := 74 } := by
  refine ⟨⟨h.ofArguments_run, h.ofArguments_ast, h.ofArguments_tokens⟩, fun source b b' => agreeOn_script,
    fun seen hseen => ?_⟩
  obtain ⟨f, hf, hprogram, hexit⟩ := exists_scriptText_eq_error hseen ⟨script⟩
  have hfailure : Outcome.ofFailure f = { stderr := f.text ++ "\n", exitStatus := 74 } := by
    rw [Outcome.ofFailure, hprogram, if_neg Bool.false_ne_true, hexit]
  refine ⟨f.text ++ "\n", fun b b' b'' run tree tokens => ?_⟩
  rw [run.outcome_of_no_text hf _ rfl, tree.outcome_of_no_text hf _ rfl, tokens.outcome_of_no_text hf _ rfl, hfailure]
  exact ⟨rfl, rfl, rfl⟩

/-- **A script with errors of both kinds**: it is refused by the commands that need a tree, and its tokens are listed
before what scanning finds wrong. -/
theorem commands_agree_both_errors : IsScriptArgument "script" ∧
    ∃ (run : UntracedRun (.runScript ⟨"script"⟩) (.file "(1 @".toUTF8) false)
      (shown : UntracedRun (.runScript ⟨"script"⟩) (.file "(1 @".toUTF8) true)
      (tree : UntracedRun (.showTree ⟨"script"⟩ false) (.file "(1 @".toUTF8) false)
      (tokens : UntracedRun (.listTokens ⟨"script"⟩ false) (.file "(1 @".toUTF8) false),
      AgreeOn "(1 @" run.outcome shown.outcome tree.outcome tokens.outcome ∧ run.outcome.exitStatus = 65 ∧
        tokens.outcome.exitStatus = 65 := by
  have hscript : IsScriptArgument "script" := ⟨by decide, by decide, by decide⟩
  have hargs := (commands_agree hscript).1
  let run := UntracedRun.onScript _ hargs.1 rfl "(1 @".toUTF8 false
  let shown := UntracedRun.onScript _ hargs.1 rfl "(1 @".toUTF8 true
  let tree := UntracedRun.onScript _ hargs.2.1 rfl "(1 @".toUTF8 false
  let tokens := UntracedRun.onScript _ hargs.2.2 rfl "(1 @".toUTF8 false
  have hagree := (commands_agree hscript).2.1 "(1 @" false false run shown tree tokens
  have herrors : (scan "(1 @").errors ≠ [] := by decide +kernel
  refine ⟨hscript, run, shown, tree, tokens, hagree, hagree.refused_of_errors herrors, ?_⟩
  rw [hagree.tokens_exitStatus, if_neg herrors]

/-- **An empty path is a misuse**: it is neither an option nor the name of a command, and nothing is there, but no
command line that names it gets to look. -/
theorem emptyScript_misused :
    ("".toList.head? ≠ some '-' ∧ "" ∉ ["tokens", "ast", "config", "help"]) ∧
    (FileTree.mk []).sight [] ⟨""⟩ = .nothing ∧
    ((FileTree.mk []).invoke { arguments := [""] }).2.exitStatus = 64 ∧
    ((FileTree.mk []).invoke { arguments := ["ast", ""] }).2.exitStatus = 64 ∧
    ((FileTree.mk []).invoke { arguments := ["tokens", ""] }).2.exitStatus = 64 :=
  ⟨⟨by decide, by decide⟩, rfl, rfl, rfl, rfl⟩

end LoxCalc
