/-!
# LoxCalc.FileTree.Path — paths as they are spelled

A path is kept as its text, which is also how it is shown.  Joining puts a slash between two paths unless the first
is empty or ends in one, and an absolute second path takes the place of the first.  The steps of a path are its
names; empty names are left out, and a slash at the end asks for a directory, as the name `.` does.
-/

namespace LoxCalc

structure Path where
  text : String
deriving DecidableEq, Repr

namespace Path

def isAbsolute (p : Path) : Bool := p.text.toList.head? == some '/'

/-- The path `q` as seen from `p`. -/
def join (p q : Path) : Path :=
  if q.isAbsolute then q
  else if p.text.isEmpty || p.text.toList.getLast? == some '/' then ⟨p.text ++ q.text⟩
  else ⟨p.text ++ "/" ++ q.text⟩

/-- The names of a path in order. -/
def steps (p : Path) : List String :=
  let names := (p.text.toList.splitOn '/').map String.ofList
  let closing := if p.text.toList.getLast? == some '/' then ["."] else []
  names.filter (· ≠ "") ++ closing

end Path

end LoxCalc
