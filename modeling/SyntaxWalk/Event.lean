/-
Events: what the library tells about its work while it goes on.
-/

namespace SyntaxWalk

/-- How important an event is. -/
inductive Level where
  | trace
  | debug
  | info
deriving DecidableEq

/-- The name of a level. -/
def Level.name : Level → String
  | .trace => "TRACE"
  | .debug => "DEBUG"
  | .info => "INFO"

/-- Something worth telling. -/
structure Event where
  level : Level
  message : String
deriving DecidableEq

end SyntaxWalk
