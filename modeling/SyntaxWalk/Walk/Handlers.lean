/-
Handler sets: at most one handler for a type. Sets are layered, and the handlers of the derived set
win over those of the base. The handlers of a set have no order; its description puts the types in
one.
-/
import SyntaxWalk.Record
import SyntaxWalk.Text.Display

namespace SyntaxWalk

/-- Handlers by the type that they handle. The order in which they are stored does not count. -/
abbrev Handlers (α : Type) := Record α

namespace Handlers

variable {α : Type}

/-- Removes the handler of a type, and tells whether there was one. -/
def remove (handlers : Handlers α) (type : String) : Bool × Handlers α :=
  let (handler, rest) := Record.remove handlers type
  (handler.isSome, rest)

/-- Adds handlers; they win over those that are there. -/
def extend (base derived : Handlers α) : Handlers α := base.insertAll derived.entries

/-- Lays handlers over others; they win over those below. -/
def layeredOver (derived base : Handlers α) : Handlers α := base.extend derived

/-- The types with a handler, as they are stored. -/
def types (handlers : Handlers α) : List String := handlers.keys

/-- The types with a handler, ascending. -/
def sortedTypes (handlers : Handlers α) : List String := handlers.types.mergeSort

/-- The description of a set: its types. -/
def describe (handlers : Handlers α) : String :=
  "Handlers \x7b types: " ++ Text.quoteAll handlers.sortedTypes ++ " \x7d"

end Handlers

end SyntaxWalk
