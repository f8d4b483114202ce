import LoxCalc.Json.Basic

/-!
# LoxCalc.Json.Printer — JSON values written on one line, and written with indentation

On one line there is no blank at all.  With indentation every item and member has a line of its own, two more
blanks for each level, and a blank follows the colon; what is empty stays on one line.
-/

namespace LoxCalc.Json

mutual

/-- A value on one line. -/
def compact : Json String → String
  | null => "null"
  | bool b => if b then "true" else "false"
  | number spelling => String.ofList spelling
  | string s => quote s
  | array items => "[" ++ ",".intercalate (compactItems items) ++ "]"
  | object members => "\x7b" ++ ",".intercalate (compactMembers members) ++ "\x7d"

def compactItems : List (Json String) → List String
  | [] => []
  | j :: js => j.compact :: compactItems js

def compactMember : String × Json String → String
  | (key, j) => quote key ++ ":" ++ j.compact

def compactMembers : List (String × Json String) → List String
  | [] => []
  | m :: ms => compactMember m :: compactMembers ms

end

/-- The beginning of a line on a level of indentation. -/
def newLine (level : Nat) : String := String.ofList ('\n' :: List.replicate (2 * level) ' ')

/-- Entries on lines of their own between two brackets. -/
def block (level : Nat) (opening closing : String) (entries : List String) : String :=
  if entries.isEmpty then opening ++ closing
  else opening ++ newLine (level + 1) ++ ("," ++ newLine (level + 1)).intercalate entries ++ newLine level ++ closing

mutual

/-- A value with indentation, on a given level. -/
def indented (level : Nat) : Json String → String
  | null => "null"
  | bool b => if b then "true" else "false"
  | number spelling => String.ofList spelling
  | string s => quote s
  | array items => block level "[" "]" (indentedItems (level + 1) items)
  | object members => block level "\x7b" "\x7d" (indentedMembers (level + 1) members)

def indentedItems (level : Nat) : List (Json String) → List String
  | [] => []
  | j :: js => j.indented level :: indentedItems level js

def indentedMember (level : Nat) : String × Json String → String
  | (key, j) => quote key ++ ": " ++ j.indented level

def indentedMembers (level : Nat) : List (String × Json String) → List String
  | [] => []
  | m :: ms => indentedMember level m :: indentedMembers level ms

end

/-- A value with indentation. -/
def pretty (j : Json String) : String := j.indented 0

end LoxCalc.Json
