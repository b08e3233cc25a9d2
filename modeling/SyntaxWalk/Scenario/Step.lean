/-
The steps of a session. A session builds trees, handler sets, options and visitors in registers,
walks, and looks at what became of the trees.
-/
import SyntaxWalk.Json.Basic
import SyntaxWalk.Scenario.Action

namespace SyntaxWalk.Scenario

/-- Options that a step uses. -/
inductive OptionsSource where
  /-- Those in a register; the default ones if there are none. -/
  | register (name : String)
  | spec (spec : OptionsSpec)

/-- Handlers that a step uses. -/
inductive HandlersSource where
  | register (name : String)
  | spec (spec : HandlersSpec)

/-- A question about a node. -/
inductive NodeQuery where
  | info
  | keysDebug
  | json

/-- A question about a field of a node. -/
inductive FieldQuery where
  | get
  | probe
  | text
  | contains
  | child
  | childDebug

/-- A question about a value. -/
inductive ValueQuery where
  | slot
  | look
  | debug
  | json

/-- A step on nodes. -/
inductive NodeStep where
  | new (as : String) (type : Option String)
  | json (as : String) (json : Json)
  | build (as : String) (value : Expr)
  /-- Wraps a node in as many nodes as given, each holding the next one, alone or in a list. -/
  | nest (as node type key : String) (times : Nat) (list : Bool)
  | alias (as node : String)
  | take (as node key : String)
  | item (as node key : String) (index : Nat)
  | drop (node : String)
  | insert (node key : String) (value : Expr)
  | remove (node key : String)
  | node (query : NodeQuery) (node : String)
  | field (query : FieldQuery) (node key : String)
  | value (query : ValueQuery) (value : Expr)
  | same (a b : String)
  | downgrade (as node : String)
  | upgrade (weak : String) (as : Option String)

/-- A step on handler sets. -/
inductive HandlersStep where
  | define (as : String) (spec : HandlersSpec)
  | insert (set type : String) (program : Program)
  | remove (set type : String)
  | extend (set derived : String)
  | layer (as derived base : String)
  | info (set : String)
  | has (set type : String)
  /-- Calls the handler for a node. -/
  | call (set node : String) (options : OptionsSource)

/-- A step on visitors. -/
inductive VisitorStep where
  | define (as : String) (seed : Option String) (options : OptionsSource)
  | on (visitor type : String) (program : Program)
  | extend (visitor derived : String)
  | info (visitor : String)
  | walk (visitor : String) (mode : Mode) (node : Option String)

/-- A step of a session. -/
inductive Step where
  | nodes (step : NodeStep)
  | handlers (step : HandlersStep)
  | visitors (step : VisitorStep)
  | options (as : String) (spec : OptionsSpec)
  | configured (as : String) (text : String)
  | resolve (node : String) (options : OptionsSource) (type : Option String)
  | walk (handlers : HandlersSource) (options : OptionsSource) (mode : Mode) (node : Option String)
  /-- Has one walker go on at several nodes. -/
  | walker (handlers : HandlersSource) (options : OptionsSource)
    (calls : List (Mode × Option String))

end SyntaxWalk.Scenario
