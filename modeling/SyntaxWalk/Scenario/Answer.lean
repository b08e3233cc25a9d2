/-
Answers to the steps of a session.
-/
import SyntaxWalk.Config
import SyntaxWalk.Scenario.Stage

namespace SyntaxWalk.Scenario

/-- What is told about a node. -/
structure Info where
  type : Option String
  typed : Bool
  effective : String
  size : Nat
  isEmpty : Bool
  keys : List String

/-- What is told about a node. -/
def Info.of (fields : Fields) : Info :=
  ⟨fields.type?, fields.isTyped, fields.effectiveType, fields.size, fields.isEmpty, fields.keys⟩

/-- What is told about a value. -/
structure Probe where
  null : Bool
  text : Option String
  int64 : Option Int
  node : Option String

/-- What is told about a value. -/
def Probe.of (heap : Heap) (value : Value) : Probe :=
  ⟨value.isNull, value.string?, value.int64?, value.node?.map heap.effectiveType⟩

/-- How a walk ended, and the log meanwhile. -/
structure Walked where
  outcome : Outcome
  log : List Entry

/-- The answer to a step. -/
inductive Answer where
  | nothing
  | flag (value : Bool)
  | count (value : Nat)
  | text (value : Option String)
  | keys (keys : List String)
  | view (value : Option View)
  | removed (value : Option View) (keys : List String)
  | probe (value : Option Probe)
  | info (value : Info)
  | child (value : ChildView)
  | slot (value : SlotView)
  | flags (a b : Bool)
  | set (size : Nat) (isEmpty : Bool) (types : List String) (debug : String)
  | options (options : Options)
  | configError (error : ConfigError)
  | resolved (keys : Except VisitError (List String)) (log : List Entry)
  | walked (value : Walked)
  /-- No handler was found. -/
  | unhandled
  /-- For each call how it ended and the depth after it. -/
  | calls (values : List (Walked × Nat))
  | visitor (debug : String) (options : Options)
  /-- A register that is needed is empty. -/
  | badStep
  /-- Calls nested too deep. -/
  | tooDeep

end SyntaxWalk.Scenario
