/-
The command line program: reads the files that a command line asks for, runs it, and prints what is
seen of it.
-/
import SyntaxWalk.Command.Run

namespace SyntaxWalk.Command

/-- The paths that a command may look at. -/
def Invocation.paths (invocation : Invocation) : List String :=
  let config :=
    match invocation.globals.config with
    | some path => [path]
    | none => Config.fileNames.map (joinPath ".")
  match invocation.task with
  | .stats path _ _ => config ++ [path]
  | .keys _ => config

/-- Looks up a path on the machine. -/
def lookUp (path : String) : IO FileState := do
  try return .file (← IO.FS.readBinFile path)
  catch _ => return .absent

/-- The files under the given paths. -/
def lookUpAll (paths : List String) : IO Files := do
  let states ← paths.mapM lookUp
  return fun path => (List.lookup path (paths.zip states)).getD .absent

/-- The files that a command line asks for. -/
def filesFor (arguments : List String) : IO Files :=
  match Invocation.parse arguments with
  | .ok invocation => lookUpAll invocation.paths
  | .error _ => return fun _ => .absent

/-- Prints what is seen of a command. -/
def Transcript.print (t : Transcript) : IO Unit := do
  for event in t.events do
    IO.eprintln s!"{event.level.name} {event.message}"
  IO.print t.output
  match t.ending with
  | .success => return
  | .usage => IO.eprintln "usage: esvisit [OPTIONS] stats FILE | keys NODE_TYPE"
  | .failure failure => IO.eprintln s!"ERROR {failure.headline}"

end SyntaxWalk.Command

/-- Runs the command line. -/
def main (arguments : List String) : IO UInt32 := do
  let transcript := SyntaxWalk.Command.run arguments (← SyntaxWalk.Command.filesFor arguments)
  transcript.print
  return transcript.code.toUInt32
