import LoxCalc.Json.Printer
import LoxCalc.Json.Reader

/-!
# LoxCalc.Settings — the settings of the calculator and their JSON form

Settings are written as an object.  Read, they may be an object, with its members in any order and members of other
names skipped, or an array of the fields in their order; only the name of the environment has no default.
-/

namespace LoxCalc

structure Settings where
  envName : String
  prompt : String := "> "
  debug : Bool := false
  printAst : Bool := false
deriving DecidableEq, Repr

namespace Settings

/-! ### Writing -/

def toJson (s : Settings) : Json String :=
  .object [("env_name", .string s.envName), ("prompt", .string s.prompt), ("debug", .bool s.debug),
    ("print_ast", .bool s.printAst)]

/-- The text of a settings file. -/
def toText (s : Settings) : String := s.toJson.pretty

/-! ### Reading -/

def textOf? : Json.Read → Option String
  | .string s => s
  | _ => none

def boolOf? : Json.Read → Option Bool
  | .bool b => some b
  | _ => none

/-- The value of a field: its default if it is missing, else what it decodes to. -/
def field? {α : Type} (decode : Json.Read → Option α) (default : Option α) : Option Json.Read → Option α
  | none => default
  | some value => decode value

/-- The settings with the given fields. -/
def ofFields? (envName prompt debug printAst : Option Json.Read) : Option Settings := do
  let envName ← field? textOf? none envName
  let prompt ← field? textOf? (some "> ") prompt
  let debug ← field? boolOf? (some false) debug
  let printAst ← field? boolOf? (some false) printAst
  some { envName, prompt, debug, printAst }

/-- The value of the member with a given name, if there is one; a name given twice has none to choose. -/
def member? (name : String) (members : List (Option String × Json.Read)) : Option (Option Json.Read) :=
  match members.filter (·.1 == some name) with
  | [] => some none
  | [m] => some (some m.2)
  | _ => none

/-- The settings that a value spells.  All names of an object must be texts. -/
def ofJson? : Json.Read → Option Settings
  | .object members =>
    if members.all (·.1.isSome) then do
      ofFields? (← member? "env_name" members) (← member? "prompt" members) (← member? "debug" members)
        (← member? "print_ast" members)
    else none
  | .array items => if items.length ≤ 4 then ofFields? items[0]? items[1]? items[2]? items[3]? else none
  | _ => none

/-- The settings that a text spells. -/
def ofText? (text : String) : Option Settings := do ofJson? (← Json.read? text)

end Settings

end LoxCalc
