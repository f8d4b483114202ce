import LoxCalc.FileTree.Path

/-!
# LoxCalc.CommandLine.Request — what the arguments ask for

The arguments are read from left to right, and the first that decides the matter does: a question for the version or
for help, or a misuse.  The first argument that is neither an option nor the name of a command is a script; after
`--` nothing is an option or a command.  Help is asked for by an option, or by the word `help` and the names of the
commands that lead to its topic.
-/

namespace LoxCalc

/-- What a run is to do. -/
inductive Command where
  | prompt
  | runScript (script : Path)
  | listTokens (script : Path) (json : Bool)
  | showTree (script : Path) (json : Bool)
  | showSettings
  | initSettings
  | showSettingsPath
deriving DecidableEq, Repr

/-- What help is about: the program, or one of its commands. -/
inductive Topic where
  | program
  | tokens
  | tree
  | settings
  | showSettings
  | initSettings
  | settingsPath
  | help
  | settingsHelp
deriving DecidableEq, Repr

/-- The commands under a topic, by name. -/
def Topic.commands : Topic → List (String × Topic)
  | program => [("tokens", tokens), ("ast", tree), ("config", settings), ("help", help)]
  | settings => [("show", showSettings), ("init", initSettings), ("path", settingsPath), ("help", settingsHelp)]
  | _ => []

/-- What the arguments ask for. -/
inductive Request where
  | run (c : Command)
  | version
  | help (topic : Topic)
  | misuse
deriving DecidableEq, Repr

/-- What an argument looks like. -/
inductive Argument where
  | separator
  | long (name : List Char)
  | short (letter : Char)
  | plain (text : String)
deriving DecidableEq, Repr

/-- A lone dash is no option. -/
def Argument.of (argument : String) : Argument :=
  match argument.toList with
  | ['-', '-'] => .separator
  | '-' :: '-' :: name => .long name
  | '-' :: letter :: _ => .short letter
  | _ => .plain argument

namespace Request

/-- The request for an option that every command has. -/
def ofHelpOption (topic : Topic) : Argument → Request
  | .long name => if name = "help".toList then .help topic else .misuse
  | .short letter => if letter = 'h' then .help topic else .misuse
  | _ => .misuse

/-- The names of commands after `help`, each under the one before it. -/
def ofHelpWords (topic : Topic) : List String → Request
  | [] => .help topic
  | word :: rest =>
    match topic.commands.lookup word with
    | some t => ofHelpWords t rest
    | none => .misuse

/-- The one script after `--`, given one before it. -/
def ofScripts (make : Option Path → Request) (script : Option Path) : List String → Request
  | [] => make script
  | argument :: rest =>
    if script.isSome || argument.isEmpty then .misuse else ofScripts make (some ⟨argument⟩) rest

/-- The arguments of a command that takes a script and the option `--json`. -/
def ofScriptCommand (topic : Topic) (make : Path → Bool → Command) (script : Option Path) (json : Bool) :
    List String → Request
  | [] => match script with
    | some p => .run (make p json)
    | none => .misuse
  | argument :: rest =>
    match Argument.of argument with
    | .separator => ofScripts (fun script => match script with
      | some p => .run (make p json)
      | none => .misuse) script rest
    | .plain text =>
      if script.isSome || text.isEmpty then .misuse else ofScriptCommand topic make (some ⟨text⟩) json rest
    | option =>
      if option = .long "json".toList then
        if json then .misuse else ofScriptCommand topic make script true rest
      else ofHelpOption topic option

/-- The arguments of a command that takes none. -/
def ofBareCommand (topic : Topic) (c : Command) : List String → Request
  | [] => .run c
  | argument :: rest =>
    match Argument.of argument with
    | .separator => if rest.isEmpty then .run c else .misuse
    | option => ofHelpOption topic option

/-- The arguments after `config`. -/
def ofSettingsCommand : List String → Request
  | [] => .misuse
  | argument :: rest =>
    if argument = "show" then ofBareCommand .showSettings .showSettings rest
    else if argument = "init" then ofBareCommand .initSettings .initSettings rest
    else if argument = "path" then ofBareCommand .settingsPath .showSettingsPath rest
    else if argument = "help" then ofHelpWords .settings rest
    else ofHelpOption .settings (Argument.of argument)

/-- The command for a script, or for none. -/
def ofScript : Option Path → Request
  | some p => .run (.runScript p)
  | none => .run .prompt

/-- The arguments of a run, given a script found already. -/
def ofArgumentsFrom (script : Option Path) : List String → Request
  | [] => ofScript script
  | argument :: rest =>
    match Argument.of argument with
    | .separator => ofScripts ofScript script rest
    | .plain text =>
      if script.isSome || text.isEmpty then .misuse
      else if text = "tokens" then ofScriptCommand .tokens .listTokens none false rest
      else if text = "ast" then ofScriptCommand .tree .showTree none false rest
      else if text = "config" then ofSettingsCommand rest
      else if text = "help" then ofHelpWords .program rest
      else ofArgumentsFrom (some ⟨text⟩) rest
    | option =>
      if option = .long "version".toList || option = .short 'V' then .version else ofHelpOption .program option

/-- What a run is asked for. -/
def ofArguments (arguments : List String) : Request := ofArgumentsFrom none arguments

end Request

end LoxCalc
