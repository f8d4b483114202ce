import LoxCalc.FileTree.Path

/-!
# LoxCalc.FileTree.Basic — a tree of files and directories

The entries of a tree stand at places; a place is a list of names, innermost first, and the root `[]` is
always a directory.  Paths are followed name by name through directories.  Nothing is ever removed: directories are
added, and a file is added or given a new content.
-/

namespace LoxCalc

/-- The names from an entry outwards to the root. -/
abbrev Place := List String

inductive Entry where
  | file (content : ByteArray)
  | directory

/-- Files and directories at their places. -/
structure FileTree where
  entries : List (Place × Entry)

/-- Why a path leads nowhere, or a file cannot be written there. -/
inductive AccessError where
  | missing
  | notADirectory
  | alreadyExists
  | isADirectory
deriving DecidableEq, Repr

def AccessError.message : AccessError → String
  | .missing => "No such file or directory (os error 2)"
  | .notADirectory => "Not a directory (os error 20)"
  | .alreadyExists => "File exists (os error 17)"
  | .isADirectory => "Is a directory (os error 21)"

/-- What a path leads to. -/
inductive Sight where
  | nothing
  | directory
  | file (content : ByteArray)

namespace FileTree

/-- The entry at a place. -/
def at? (t : FileTree) : Place → Option Entry
  | [] => some .directory
  | l => t.entries.lookup l

/-- The tree with an entry at a place, in the place of what stood there. -/
def put (t : FileTree) (l : Place) (e : Entry) : FileTree :=
  ⟨(l, e) :: t.entries.filter (·.1 != l)⟩

/-- Where one name leads from a directory. -/
def step (l : Place) (name : String) : Place :=
  if name = "." then l else if name = ".." then l.tail else name :: l

/-- Where names lead from a place. -/
def follow (t : FileTree) (l : Place) : List String → Except AccessError Place
  | [] => .ok l
  | name :: names =>
    match t.at? l with
    | none => .error .missing
    | some (.file _) => .error .notADirectory
    | some .directory =>
      if (t.at? (step l name)).isSome then t.follow (step l name) names else .error .missing

/-- Where a path begins, seen from a working directory. -/
def origin (workingDirectory : Place) (p : Path) : Place := if p.isAbsolute then [] else workingDirectory

/-- What a path shows from a working directory. -/
def sight (t : FileTree) (workingDirectory : Place) (p : Path) : Sight :=
  if p.text.isEmpty then .nothing
  else match t.follow (origin workingDirectory p) p.steps with
    | .error _ => .nothing
    | .ok l => match t.at? l with
      | none => .nothing
      | some .directory => .directory
      | some (.file content) => .file content

/-! ### Writing -/

/-- Makes the directories that names lead through.  A file in the way is an error of its own kind if it stands at the
end or after a directory that had to be made. -/
def makeDirectories (t : FileTree) (made : Bool) (l : Place) : List String → FileTree × Except AccessError Place
  | [] => (t, .ok l)
  | name :: names =>
    match t.at? (step l name) with
    | some .directory => t.makeDirectories made (step l name) names
    | some (.file _) => (t, .error (if made || names.isEmpty then .alreadyExists else .notADirectory))
    | none => (t.put (step l name) .directory).makeDirectories true (step l name) names

/-- Gives the file of a name in a directory its content. -/
def writeIn (t : FileTree) (l : Place) (name : String) (content : ByteArray) : FileTree × Except AccessError Unit :=
  match t.at? (step l name) with
  | some .directory => (t, .error .isADirectory)
  | _ => (t.put (step l name) (.file content), .ok ())

/-- The names of the directories that lead to a path; a name that stays where it is asks for none. -/
def leading (p : Path) : List String := p.steps.dropLast.filter (· ≠ ".")

/-- Writes a file at a path, after making the directories that lead there. -/
def write (t : FileTree) (workingDirectory : Place) (p : Path) (content : ByteArray) :
    FileTree × Except AccessError Unit :=
  match t.makeDirectories false (origin workingDirectory p) (leading p) with
  | (t, .error e) => (t, .error e)
  | (t, .ok l) => t.writeIn l (p.steps.getLast?.getD ".") content

end FileTree

end LoxCalc
