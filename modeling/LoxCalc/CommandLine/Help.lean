import LoxCalc.CommandLine.Request

/-!
# LoxCalc.CommandLine.Help — the pages of help

A page says what its topic is, how the command is called, and in columns what its commands, arguments and options mean.
-/

namespace LoxCalc

namespace Topic

/-- What a topic is, in one line. -/
def about : Topic → String
  | program => "Lox expression interpreter"
  | tokens => "Print the token stream of a script"
  | tree => "Print the parsed expression tree of a script"
  | settings => "Manage the interpreter configuration"
  | showSettings => "Show the effective configuration"
  | initSettings => "Write a config file with defaults for the current environment"
  | settingsPath => "Print the config file location"
  | help | settingsHelp => "Print this message or the help of the given subcommand(s)"

/-- The ways to call a command. -/
def usage : Topic → List String
  | program => ["lox [SCRIPT]", "lox <COMMAND>"]
  | tokens => ["lox tokens [OPTIONS] <SCRIPT>"]
  | tree => ["lox ast [OPTIONS] <SCRIPT>"]
  | settings => ["lox config <COMMAND>"]
  | showSettings => ["lox config show"]
  | initSettings => ["lox config init"]
  | settingsPath => ["lox config path"]
  | help => ["lox help [COMMAND]..."]
  | settingsHelp => ["lox config help [COMMAND]..."]

/-- The arguments of a command, with what is said about them. -/
def arguments : Topic → List (String × String)
  | program => [("[SCRIPT]", "Script to run; starts an interactive prompt when omitted")]
  | tokens | tree => [("<SCRIPT>", "")]
  | help | settingsHelp => [("[COMMAND]...", "Print help for the subcommand(s)")]
  | _ => []

def helpOption : String × String := ("-h, --help", "Print help")

/-- The options of a command; those without a letter leave its place empty. -/
def options : Topic → List (String × String)
  | program => [helpOption, ("-V, --version", "Print version")]
  | tokens => [("    --json", "Emit JSON instead of one token per line"), helpOption]
  | tree => [("    --json", "Emit JSON instead of the parenthesized form"), helpOption]
  | help | settingsHelp => []
  | _ => [helpOption]

/-- Names and what they mean, in two columns under a heading; nothing if there are none. -/
def columns (heading : String) (entries : List (String × String)) : String :=
  let width := (entries.map (·.1.length)).foldl max 0
  let line := fun (name, meaning) =>
    "  " ++ name ++ String.ofList (List.replicate (width - name.length) ' ') ++ "  " ++ meaning ++ "\n"
  if entries.isEmpty then "" else "\n" ++ heading ++ ":\n" ++ String.join (entries.map line)

/-- The page about a topic. -/
def page (t : Topic) : String :=
  t.about ++ "\n\nUsage: " ++ "\n       ".intercalate t.usage ++ "\n" ++
    columns "Commands" (t.commands.map fun (name, c) => (name, c.about)) ++
    columns "Arguments" t.arguments ++ columns "Options" t.options

end Topic

end LoxCalc
