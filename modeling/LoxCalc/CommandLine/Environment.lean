import LoxCalc.FileTree.Path
import LoxCalc.Settings
import LoxCalc.Text.CodePoints

/-!
# LoxCalc.CommandLine.Environment — what the environment variables say

A variable that is not text in UTF-8 counts as unset.  `HOME` and `LOX_ENV` say where the settings file is; `LOX_DEBUG`
and `LOX_PROMPT` override what it holds.
-/

namespace LoxCalc

/-- The environment variables that matter, as bytes. -/
structure Environment where
  home : Option ByteArray := none
  loxEnv : Option ByteArray := none
  loxDebug : Option ByteArray := none
  loxPrompt : Option ByteArray := none

/-- The text of a variable that is set to one. -/
def variableText? (v : Option ByteArray) : Option String := v.bind String.fromUTF8?

theorem fromUTF8?_toUTF8 (s : String) : String.fromUTF8? s.toUTF8 = some s := dif_pos s.isValidUTF8

theorem fromUTF8?_eq_none {bytes : ByteArray} (h : ¬ bytes.IsValidUTF8) : String.fromUTF8? bytes = none := dif_neg h

/-- A flag is on if it is one of four words, white space around it and the case of its letters aside. -/
def isOn (flag : String) : Bool :=
  ["1", "true", "yes", "on"].contains (String.ofList ((trimWhiteSpace flag.toList).map Char.toLower))

namespace Environment

/-- The name of the environment. -/
def name (env : Environment) : String := (variableText? env.loxEnv).getD "default"

/-- Where the settings file is. -/
def settingsPath (env : Environment) : Path :=
  (((Path.mk ((variableText? env.home).getD ".")).join ⟨".lox"⟩).join ⟨env.name⟩).join ⟨"config.json"⟩

/-- The settings of an environment without a file. -/
def defaults (env : Environment) : Settings := { envName := env.name }

/-- Settings with what the variables override. -/
def override (env : Environment) (s : Settings) : Settings :=
  let s := match variableText? env.loxDebug with
    | none => s
    | some flag => { s with debug := isOn flag }
  match variableText? env.loxPrompt with
  | none => s
  | some prompt => { s with prompt := prompt }

/-- The settings in force, given the content of the settings file: the defaults if it holds none. -/
def settings (env : Environment) (file : Option ByteArray) : Settings :=
  env.override (((file.bind String.fromUTF8?).bind Settings.ofText?).getD env.defaults)

end Environment

end LoxCalc
