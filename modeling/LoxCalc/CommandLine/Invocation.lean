import LoxCalc.CommandLine.Environment
import LoxCalc.CommandLine.Help
import LoxCalc.CommandLine.Prompt
import LoxCalc.FileTree.Basic

/-!
# LoxCalc.CommandLine.Invocation — a whole run among files

A command looks at no more than one path beside the settings file (`Command.looksAt`); given what stands there, its
`Command.reply` is to end, to answer lines, or to write the settings file.  `invoke` carries a reply out on a
`FileTree`.
-/

namespace LoxCalc

/-- What a command does once it has seen the path it looks at. -/
inductive Reply where
  | finish (o : Outcome)
  | converse
  | create (path : Path) (content : String)

namespace Outcome

def version : Outcome := line "lox-expr 0.1.0"

def help (t : Topic) : Outcome := { stdout := t.page }

/-- The status of a misused command line. -/
def misuse : Outcome := { stderr := "error: unusable arguments; try '--help'\n", exitStatus := 64 }

/-- The end of writing the settings file. -/
def ofCreation (path : Path) : Except AccessError Unit → Outcome
  | .ok () => line ("Initialized new config file at: " ++ path.text)
  | .error e => ofFailure (.io e.message)

end Outcome

/-- The text of a script. -/
def scriptText (script : Path) : Sight → Except Failure String
  | .file content => match String.fromUTF8? content with
    | some source => .ok source
    | none => .error .notText
  | _ => .error (.fileNotFound ("Script not found: " ++ script.text))

/-- What is done with the text of a script, if it has one. -/
def Reply.ofScript (script : Path) (seen : Sight) (answer : String → Outcome) : Reply :=
  .finish (match scriptText script seen with
    | .ok source => answer source
    | .error f => .ofFailure f)

namespace Command

/-- The path a command looks at. -/
def looksAt (env : Environment) : Command → Option Path
  | runScript p => some p
  | listTokens p _ => some p
  | showTree p _ => some p
  | initSettings => some env.settingsPath
  | _ => none

/-- What a command does. -/
def reply (env : Environment) (s : Settings) (seen : Sight) : Command → Reply
  | prompt => .converse
  | runScript p => .ofScript p seen (.ofSource s)
  | listTokens p json => .ofScript p seen (.ofTokens json)
  | showTree p json => .ofScript p seen (.ofTree s json)
  | showSettings => .finish (.line s.toText)
  | showSettingsPath => .finish (.line env.settingsPath.text)
  | initSettings => match seen with
    | .nothing => .create env.settingsPath env.defaults.toText
    | _ => .finish (.line ("Config file already exists at: " ++ env.settingsPath.text))

end Command

/-- A run: its arguments, its input, its environment and where it takes place. -/
structure Invocation where
  arguments : List String
  stdin : ByteArray := .empty
  environment : Environment := {}
  workingDirectory : Place := []

/-- The content of the file that is seen. -/
def Sight.content? : Sight → Option ByteArray
  | .file content => some content
  | _ => none

namespace FileTree

/-- The settings in force for a run. -/
def settings (t : FileTree) (i : Invocation) : Settings :=
  i.environment.settings (t.sight i.workingDirectory i.environment.settingsPath).content?

/-- What the path that a command looks at shows. -/
def seenBy (t : FileTree) (i : Invocation) (c : Command) : Sight :=
  match c.looksAt i.environment with
  | none => .nothing
  | some p => t.sight i.workingDirectory p

/-- A command run among files. -/
def runCommand (t : FileTree) (i : Invocation) (c : Command) : FileTree × Outcome :=
  let s := t.settings i
  match c.reply i.environment s (t.seenBy i c) with
  | .finish o => (t, s.trace.andThen o)
  | .converse => (t, s.trace.andThen (Prompt.converse s (Prompt.linesOf i.stdin)))
  | .create path content =>
    let (t, written) := t.write i.workingDirectory path content.toUTF8
    (t, s.trace.andThen (.ofCreation path written))

/-- A run among files: the files after it, and what it wrote. -/
def invoke (t : FileTree) (i : Invocation) : FileTree × Outcome :=
  match Request.ofArguments i.arguments with
  | .version => (t, .version)
  | .help topic => (t, .help topic)
  | .misuse => (t, .misuse)
  | .run c => t.runCommand i c

end FileTree

end LoxCalc
