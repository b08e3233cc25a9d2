/-
Files as a command sees them: for each path, whether there is a file, a directory or nothing.
-/

namespace SyntaxWalk

/-- What is found under a path. -/
inductive FileState where
  | absent
  | directory
  | file (content : ByteArray)

/-- What is found under each path. -/
abbrev Files := String → FileState

namespace Files

/-- Whether there is a file under a path. -/
def isFile (files : Files) (path : String) : Bool :=
  match files path with
  | .file _ => true
  | _ => false

/-- The text of a file, if there is one and it holds text. -/
def read? (files : Files) (path : String) : Option String :=
  match files path with
  | .file content => String.fromUTF8? content
  | _ => none

end Files

/-- A name inside a directory. -/
def joinPath (directory name : String) : String :=
  if directory.isEmpty then name
  else if directory.endsWith "/" then directory ++ name
  else directory ++ "/" ++ name

end SyntaxWalk
