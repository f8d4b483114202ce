import LoxCalc.CommandLine.Invocation

/-!
# LoxCalc.Main — the program

Reads the arguments, the environment, the files and the input that a run asks for, and writes its outcome.
-/

namespace LoxCalc.Main

/-- Writes what a run writes. -/
def write (o : Outcome) : IO Unit := do
  let out ← IO.getStdout
  out.putStr o.stdout
  out.flush
  let err ← IO.getStderr
  err.putStr o.stderr
  err.flush

/-- The kind of a refusal of the system, if it is one of those that have a wording. -/
def accessError? : IO.Error → Option AccessError
  | .noFileOrDirectory .. => some .missing
  | .alreadyExists .. => some .alreadyExists
  | .inappropriateType _ code _ => if code = 21 then some .isADirectory else some .notADirectory
  | _ => none

/-- What a path shows. -/
def look (p : Path) : IO Sight := do
  match ← (IO.FS.readBinFile p.text).toBaseIO with
  | .ok content => return .file content
  | .error e => match accessError? e with
    | some .missing => return .nothing
    | some .notADirectory => return .nothing
    | _ => return .directory

/-- Makes a directory and those that lead to it, unless it is there. -/
def makeDirectory (p : Path) : IO Unit := do
  match ← (IO.FS.createDir p.text).toBaseIO with
  | .ok () => return
  | .error e => match accessError? e, ← look p with
    | some .missing, _ => IO.FS.createDirAll p.text
    | some .alreadyExists, .directory => return
    | _, _ => throw e

/-- Writes a new file, after making the directories that lead to it. -/
def create (p : Path) (content : String) : IO Outcome := do
  let parent := String.ofList (p.text.toList.reverse.dropWhile (· != '/')).reverse
  let attempt : IO Unit := do
    makeDirectory ⟨parent⟩
    IO.FS.writeFile p.text content
  match ← attempt.toBaseIO with
  | .ok () => return .ofCreation p (.ok ())
  | .error e => match accessError? e with
    | some known => return .ofCreation p (.error known)
    | none => return .ofFailure (.io (toString e))

/-- The bytes up to the next line feed, and whether there was one. -/
partial def readLine (input : IO.FS.Stream) (begun : List UInt8) : IO (List UInt8 × Bool) := do
  match (← input.read 1).data.toList with
  | [] => return (begun.reverse, false)
  | b :: _ => if b = 10 then return (begun.reverse, true) else readLine input (b :: begun)

/-- Answers line by line until the input ends. -/
partial def converse (s : Settings) (input : IO.FS.Stream) : IO UInt8 := do
  write (Prompt.ask s)
  let (line, ended) ← readLine input []
  if line.isEmpty && !ended then return 0
  let line := if ended then Prompt.dropReturn line else line
  match Prompt.answer? s ⟨line.toArray⟩ with
  | some o =>
    write o
    converse s input
  | none =>
    write (.ofFailure .notText)
    return (Outcome.ofFailure .notText).exitStatus

/-- A variable of the environment.  One that is no text arrives with replacement characters and counts as unset. -/
def readVariable (name : String) : IO (Option ByteArray) := do
  return ((← IO.getEnv name).filter fun v => !v.toList.contains '\uFFFD').map String.toUTF8

/-- Runs a command. -/
def run (c : Command) : IO UInt8 := do
  let env : Environment := {
    home := ← readVariable "HOME"
    loxEnv := ← readVariable "LOX_ENV"
    loxDebug := ← readVariable "LOX_DEBUG"
    loxPrompt := ← readVariable "LOX_PROMPT" }
  let s := env.settings (← look env.settingsPath).content?
  write s.trace
  let seen ← match c.looksAt env with
    | none => pure .nothing
    | some p => look p
  let finish (o : Outcome) : IO UInt8 := do
    write o
    return o.exitStatus
  match c.reply env s seen with
  | .finish o => finish o
  | .converse => converse s (← IO.getStdin)
  | .create p content => finish (← create p content)

end LoxCalc.Main

/-- The program. -/
def main (arguments : List String) : IO UInt32 := do
  let finish (o : LoxCalc.Outcome) : IO UInt32 := do
    LoxCalc.Main.write o
    return o.exitStatus.toUInt32
  match LoxCalc.Request.ofArguments arguments with
  | .version => finish .version
  | .help topic => finish (.help topic)
  | .misuse => finish .misuse
  | .run c => return (← LoxCalc.Main.run c).toUInt32
