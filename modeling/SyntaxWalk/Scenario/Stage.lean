/-
The stage of a scenario: its registers, its log, and what its handlers remember.
-/
import SyntaxWalk.Scenario.Action
import SyntaxWalk.Scenario.View
import SyntaxWalk.Walk.Visitor

namespace SyntaxWalk.Scenario

/-- An entry of the log. -/
inductive Entry where
  /-- A handler was here. -/
  | log (tag type : String) (depth : Nat) (name : Option String)
  /-- The value of a field. -/
  | look (key : String) (value : Option View)
  /-- An error was caught. -/
  | caught (error : VisitError) (depth : Nat)
  /-- A field was removed. -/
  | removed (key : String) (value : Option View)
  /-- The child fields of a node. -/
  | keys (keys : Except VisitError (List String))
  /-- The options of the walk: the fallback and the types with overrides. -/
  | options (fallback : String) (types : List String)
  /-- The custom fallback was asked about a node of the given type. -/
  | custom (type : String)
  | event (event : Event)

/-- A handler of a scenario: its number, by which its calls are counted, and its program. -/
structure Performer where
  serial : Nat
  program : Program

/-- The state of a scenario. -/
structure Stage where
  nodes : Registers := ∅
  weak : StringMap NodeId := ∅
  handlerSets : StringMap (Handlers Performer) := ∅
  options : StringMap Options := ∅
  visitors : StringMap (Visitor Performer) := ∅
  /-- Entries, newest first. -/
  log : List Entry := []
  /-- Whether events are put into the log. -/
  tracing : Bool := false
  /-- How often each handler was called, by its number. -/
  calls : Array Nat := #[]
  /-- How often handlers were called in all. -/
  spent : Nat := 0

namespace Stage

/-- How many calls of handlers a scenario may make. -/
def callBudget : Nat := 2000

/-- The nodes that registers hold. -/
def handles (stage : Stage) : List NodeId := stage.nodes.entries.map (·.2)

/-- Adds an entry to the log. -/
def note (stage : Stage) (entry : Entry) : Stage := { stage with log := entry :: stage.log }

/-- Adds an event to the log, if events are asked for. -/
def event (stage : Stage) (event : Event) : Stage :=
  if stage.tracing then stage.note (.event event) else stage

/-- Empties the log, and gives what it held. -/
def takeLog (stage : Stage) : List Entry × Stage := (stage.log.reverse, { stage with log := [] })

/-- Makes a new handler. -/
def enlist (stage : Stage) (program : Program) : Performer × Stage :=
  (⟨stage.calls.size, program⟩, { stage with calls := stage.calls.push 0 })

/-- Makes new handlers, each with a count of calls of its own. -/
def enlistAll (stage : Stage) (spec : HandlersSpec) : Handlers Performer × Stage :=
  spec.foldl
    (fun (handlers, stage) (type, program) =>
      let (performer, stage) := stage.enlist program
      (handlers.insert type performer, stage))
    (∅, stage)

/-- Counts a call of a handler. -/
def countCall (stage : Stage) (serial : Nat) : Stage :=
  { stage with spent := stage.spent + 1, calls := stage.calls.modify serial (· + 1) }

/-- Writes a register for nodes; without a node the register is emptied. -/
def bind (stage : Stage) (register : String) (node : Option NodeId) : Stage :=
  match node with
  | some id => { stage with nodes := stage.nodes.insert register id }
  | none => { stage with nodes := stage.nodes.erase register }

/-- Notes what a walk tells. Each question to a custom fallback is noted besides. -/
def notify (notice : Notice) (heap : Heap) (stage : Stage) : Stage :=
  let stage := stage.event notice.event
  match notice with
  | .consulting _ id => stage.note (.custom (heap.effectiveType id))
  | _ => stage

/-- Resolves the child fields of a node and notes what is told meanwhile. -/
def resolveKeys (stage : Stage) (options : Options) (heap : Heap) (id : NodeId) (type : String) :
    Except VisitError (List String) × Stage :=
  let stage :=
    match options.notice? id type with
    | some notice => notify notice heap stage
    | none => stage
  (options.resolveKeys heap id type, stage)

end Stage

end SyntaxWalk.Scenario
