/-
Directories in memory: files and directories by the names that lead to them. A path is followed
name by name, and every name but the last has to lead to a directory; nothing outside the
directory can be reached.
-/
import SyntaxWalk.Files

namespace SyntaxWalk

/-- Files and directories by the names that lead to them, without the directory itself. -/
structure Directory where
  entries : List (List String × FileState) := []

namespace Directory

/-- The names of a path. -/
def names (path : String) : List String := path.splitOn "/"

/-- What names lead to. -/
def find (d : Directory) (place : List String) : FileState :=
  if place.isEmpty then .directory else (d.entries.lookup place).getD .absent

/-- Puts something where names lead to, in place of what was there. -/
def put (d : Directory) (place : List String) (state : FileState) : Directory :=
  ⟨(place, state) :: d.entries.filter (fun e => e.1 != place)⟩

/-- Whether names lead to a directory. -/
def isDirectory (d : Directory) (place : List String) : Bool :=
  match d.find place with
  | .directory => true
  | _ => false

/-! ## Following a path -/

/-- Whether a name stays where it is. -/
def isHere (name : String) : Bool := name = "" || name = "."

/-- Follows the names of a path from where `place` leads. -/
def follow (d : Directory) (place : List String) : List String → FileState
  | [] => d.find place
  | name :: rest =>
    if !d.isDirectory place then .absent
    else if isHere name then d.follow place rest
    else if name = ".." then if place.isEmpty then .absent else d.follow place.dropLast rest
    else d.follow (place ++ [name]) rest

/-- The files that are seen from inside the directory. -/
def files (d : Directory) : Files := fun path =>
  if path.isEmpty || path.startsWith "/" then .absent else d.follow [] (names path)

/-! ## Making files and directories -/

/-- Follows the names of a path from where `place` leads and makes the directories that are missing
on the way; also one that the path leaves again. Gives the names that lead there directly. -/
def makePath (d : Directory) (place : List String) : List String → Directory × List String
  | [] => (d, place)
  | name :: rest =>
    if isHere name then d.makePath place rest
    else if name = ".." then d.makePath place.dropLast rest
    else
      let next := place ++ [name]
      (if d.isDirectory next then d else d.put next .directory).makePath next rest

/-- Makes a file or a directory, and the directories on the way to it. -/
def make (d : Directory) (path : String) : FileState → Directory
  | .absent => d
  | .directory => (d.makePath [] (names path)).1
  | .file content =>
    let (d, place) := d.makePath [] (names path).dropLast
    d.put (place ++ (names path).getLast?.toList) (.file content)

/-- The directory in which the given files and directories were made one after the other. -/
def ofList (entries : List (String × FileState)) : Directory :=
  entries.foldl (fun d (path, state) => d.make path state) {}

end Directory

end SyntaxWalk
