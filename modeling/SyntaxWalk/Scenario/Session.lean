/-
Sessions: what each step does to the registers and the trees, and what it answers.
-/
import SyntaxWalk.Json.Writer
import SyntaxWalk.Scenario.Answer
import SyntaxWalk.Scenario.Perform
import SyntaxWalk.Scenario.Step
import SyntaxWalk.Tree.Describe
import SyntaxWalk.Tree.Json

namespace SyntaxWalk.Scenario

/-- The state of a session. -/
abbrev Session := World Stage

namespace Session

/-- Changes the stage. -/
def stage (s : Session) (f : Stage → Stage) : Session := { s with host := f s.host }

/-- The node in a register. -/
def node? (s : Session) (register : String) : Option NodeId := s.host.nodes.get? register

/-- Writes a register for nodes. -/
def bind (s : Session) (register : String) (node : Option NodeId) : Session :=
  s.stage (·.bind register node)

/-- The handler set in a register. -/
def handlers? (s : Session) (register : String) : Option (Handlers Performer) :=
  s.host.handlerSets.get? register

/-- Writes a register for handler sets, and tells the size of the set. -/
def keep (s : Session) (register : String) (handlers : Handlers Performer) : Answer × Session :=
  (.count handlers.size,
    s.stage (fun h => { h with handlerSets := h.handlerSets.insert register handlers }))

/-- Empties a register for handler sets. -/
def consume (s : Session) (register : String) : Session :=
  s.stage (fun h => { h with handlerSets := h.handlerSets.erase register })

/-- Writes a register for visitors, and tells how many handlers it has. -/
def keepVisitor (s : Session) (register : String) (v : Visitor Performer) : Answer × Session :=
  (.count v.handlers.size, s.stage (fun h => { h with visitors := h.visitors.insert register v }))

/-- Writes a register for options. -/
def keepOptions (s : Session) (register : String) (options : Options) : Answer × Session :=
  (.options options, s.stage (fun h => { h with options := h.options.insert register options }))

/-- Makes a new handler. -/
def enlist (s : Session) (program : Program) : Performer × Session :=
  let (performer, stage) := s.host.enlist program
  (performer, { s with host := stage })

/-- Makes new handlers. -/
def enlistAll (s : Session) (spec : HandlersSpec) : Handlers Performer × Session :=
  let (handlers, stage) := s.host.enlistAll spec
  (handlers, { s with host := stage })

/-- Empties the log, and gives what it held. -/
def takeLog (s : Session) : List Entry × Session :=
  let (log, stage) := s.host.takeLog
  (log, { s with host := stage })

/-- The options of a source. -/
def optionsOf (s : Session) : OptionsSource → Options
  | .register name => (s.host.options.get? name).getD {}
  | .spec spec => spec.options

/-- The handlers of a source, if there are any. -/
def handlersOf? (s : Session) : HandlersSource → Option (Handlers Performer × Session)
  | .register name => (s.handlers? name).map (fun handlers => (handlers, s))
  | .spec spec => some (s.enlistAll spec)

/-- How a value that is held meanwhile is seen. -/
def see (s : Session) (value : Value) : View :=
  view s.heap (s.heap.isAlive (value.owned ++ s.host.handles)) value

/-- Evaluates an expression. -/
def eval (s : Session) (expr : Expr) : Value × Session :=
  let (value, heap) := expr.eval s.host.nodes s.heap
  (value, { s with heap })

/-- Answers by how a walk ended. -/
def answerWalk : Option (Outcome × Session) → Session → Answer × Session
  | none, s => (.tooDeep, s)
  | some (outcome, s), _ =>
    let (log, s) := s.takeLog
    (.walked ⟨outcome, log⟩, s)

/-- Does something with the node in a register. -/
def withNode (s : Session) (register : String) (f : NodeId → Answer × Session) :
    Answer × Session :=
  (s.node? register).elim (.badStep, s) f

/-- Adds a node. -/
def alloc (s : Session) (fields : Fields) : NodeId × Session :=
  let (id, heap) := s.heap.alloc fields
  (id, { s with heap })

/-- Wraps a node in nodes of a type, one after the other. -/
def nest (type key : String) (list : Bool) : Nat → NodeId → Session → NodeId × Session
  | 0, id, s => (id, s)
  | times + 1, id, s =>
    let inner : Value := if list then .array [.node id] else .node id
    let (id, s) := s.alloc (Record.ofList [("type", .string type), (key, inner)])
    nest type key list times id s

/-- Answers a question about a node. -/
def askNode (s : Session) (id : NodeId) : NodeQuery → Answer
  | .info => .info (.of (s.heap.fields id))
  | .keysDebug => .text (some (s.heap.describe id))
  | .json => .text ((s.heap.toJson? (.node id)).map Json.compact)

/-- Answers a question about a field of a node. -/
def askField (s : Session) (id : NodeId) (key : String) : FieldQuery → Answer
  | .get => .view ((s.heap.get? id key).map s.see)
  | .probe => .probe ((s.heap.get? id key).map (Probe.of s.heap))
  | .text => .text ((s.heap.fields id).text? key)
  | .contains => .flag ((s.heap.fields id).contains key)
  | .child => .child (.of s.heap (s.heap.child id key))
  | .childDebug => .text (some (s.heap.describeChild (s.heap.child id key)))

/-- Answers a question about a value. -/
def askValue (s : Session) (value : Value) : ValueQuery → Answer
  | .slot => .slot (.of s.heap (Slot.of s.heap value))
  | .look => .view (some (s.see value))
  | .debug => .text (some (s.heap.describeValue value))
  | .json => .text ((s.heap.toJson? value).map Json.compact)

/-- The node in an item of a list. -/
def itemNode? (value : Option Value) (index : Nat) : Option NodeId :=
  match value with
  | some (.array items) => (items[index]?).bind Value.node?
  | _ => none

/-- Does a step on nodes. -/
def stepNodes (s : Session) : NodeStep → Answer × Session
  | .new as type =>
    let (id, s) := s.alloc (.ofList (type.map (fun t => ("type", Value.string t))).toList)
    (.nothing, s.bind as (some id))
  | .json as json =>
    let (id, heap) := s.heap.nodeOfJson? json
    (.flag id.isSome, bind { s with heap } as id)
  | .build as expr =>
    let (value, s) := s.eval expr
    (.flag value.node?.isSome, s.bind as value.node?)
  | .nest as node type key times list => s.withNode node fun id =>
    let (id, s) := nest type key list times id s
    (.nothing, s.bind as (some id))
  | .alias as node => s.withNode node fun id => (.nothing, s.bind as (some id))
  | .take as node key => s.withNode node fun id =>
    let child := (s.heap.get? id key).bind Value.node?
    (.flag child.isSome, s.bind as child)
  | .item as node key index => s.withNode node fun id =>
    let child := itemNode? (s.heap.get? id key) index
    (.flag child.isSome, s.bind as child)
  | .drop node => (.nothing, s.bind node none)
  | .insert node key expr => s.withNode node fun id =>
    let (value, s) := s.eval expr
    let s : Session := { s with heap := s.heap.insert id key value }
    (.keys (s.heap.fields id).keys, s)
  | .remove node key => s.withNode node fun id =>
    let (old, heap) := s.heap.remove id key
    let s : Session := { s with heap }
    (.removed (old.map s.see) (s.heap.fields id).keys, s)
  | .node query node => s.withNode node fun id => (s.askNode id query, s)
  | .field query node key => s.withNode node fun id => (s.askField id key query, s)
  | .value query expr =>
    let (value, s) := s.eval expr
    (s.askValue value query, s)
  | .same a b => s.withNode a fun a => s.withNode b fun b => (.flags (a = b) (a = b), s)
  | .downgrade as node => s.withNode node fun id =>
    (.nothing, s.stage (fun h => { h with weak := h.weak.insert as id }))
  | .upgrade weak as =>
    let id := s.heap.upgrade? s.host.handles (s.host.weak.get? weak)
    (.text (id.map s.heap.effectiveType), as.elim s (s.bind · id))

/-- Does something with the handler set in a register. -/
def withHandlers (s : Session) (register : String)
    (f : Handlers Performer → Answer × Session) : Answer × Session :=
  (s.handlers? register).elim (.badStep, s) f

/-- Calls the handler for a node, if there is one, with a new walker. -/
def callHandler (s : Session) (handlers : Handlers Performer) (options : Options) (id : NodeId) :
    Answer × Session :=
  match handlers.get? (s.heap.effectiveType id) with
  | none => (.unhandled, s)
  | some performer =>
    let result := Walk.runScript (Walk.run depthLimit) (setting handlers options) [.node id]
      (performer.behave id) ⟨s, {}⟩
    answerWalk (result.map (fun (outcome, t) => (outcome, t.world))) s

/-- Does a step on handler sets. -/
def stepHandlers (s : Session) : HandlersStep → Answer × Session
  | .define as spec =>
    let (handlers, s) := s.enlistAll spec
    s.keep as handlers
  | .insert set type program => s.withHandlers set fun handlers =>
    let (performer, s) := s.enlist program
    s.keep set (handlers.insert type performer)
  | .remove set type => s.withHandlers set fun handlers =>
    let (removed, handlers) := handlers.remove type
    (.flag removed, (s.keep set handlers).2)
  | .extend set derived => s.withHandlers set fun handlers => s.withHandlers derived fun more =>
    (s.consume derived).keep set (handlers.extend more)
  | .layer as derived base => s.withHandlers derived fun top => s.withHandlers base fun bottom =>
    ((s.consume derived).consume base).keep as (top.layeredOver bottom)
  | .info set => s.withHandlers set fun handlers =>
    (.set handlers.size handlers.isEmpty handlers.sortedTypes handlers.describe, s)
  | .has set type => s.withHandlers set fun handlers =>
    (.flags (handlers.contains type) (handlers.get? type).isSome, s)
  | .call set node options => s.withHandlers set fun handlers => s.withNode node fun id =>
    s.callHandler handlers (s.optionsOf options) id

/-- Does something with the visitor in a register. -/
def withVisitor (s : Session) (register : String) (f : Visitor Performer → Answer × Session) :
    Answer × Session :=
  (s.host.visitors.get? register).elim (.badStep, s) f

/-- Does a step on visitors. -/
def stepVisitors (s : Session) : VisitorStep → Answer × Session
  | .define as seed options =>
    (seed.elim s s.consume).keepVisitor as
      (.new (seed.bind s.handlers?) (s.optionsOf options))
  | .on visitor type program => s.withVisitor visitor fun v =>
    let (performer, s) := s.enlist program
    s.keepVisitor visitor (v.on type performer)
  | .extend visitor derived => s.withVisitor visitor fun v => s.withHandlers derived fun more =>
    (s.consume derived).keepVisitor visitor (v.extend more)
  | .info visitor => s.withVisitor visitor fun v => (.visitor v.handlers.describe v.options, s)
  | .walk visitor mode node => s.withVisitor visitor fun v =>
    answerWalk (v.walk depthLimit host mode (node.bind s.node?) s) s

/-- Has one walker go on at several nodes, one after the other. -/
def goOnAll (setting : Walk.Setting Stage Performer) :
    List (Mode × Option String) → Walk.State Stage → Option (List (Walked × Nat) × Walk.State Stage)
  | [], s => some ([], s)
  | (mode, register) :: rest, s => do
    let node := register.bind (node? s.world)
    let (outcome, s) ← Walker.go depthLimit setting mode node s
    let (log, world) := takeLog s.world
    let (values, t) ← goOnAll setting rest { s with world }
    return ((⟨outcome, log⟩, s.walker.depth) :: values, t)

/-- Does a step. -/
def step (s : Session) : Step → Answer × Session
  | .nodes step => s.stepNodes step
  | .handlers step => s.stepHandlers step
  | .visitors step => s.stepVisitors step
  | .options as spec => s.keepOptions as spec.options
  | .configured as text =>
    match Config.ofText text with
    | .error e => (.configError e, s)
    | .ok config => s.keepOptions as config.options
  | .resolve node options type => s.withNode node fun id =>
    let type := type.getD (s.heap.effectiveType id)
    let (keys, stage) := s.host.resolveKeys (s.optionsOf options) s.heap id type
    let (log, stage) := stage.takeLog
    (.resolved keys log, { s with host := stage })
  | .walk handlers options mode node =>
    match s.handlersOf? handlers with
    | none => (.badStep, s)
    | some (handlers, s) =>
      answerWalk (walkFrom handlers (s.optionsOf options) mode (node.bind s.node?) s) s
  | .walker handlers options calls =>
    match s.handlersOf? handlers with
    | none => (.badStep, s)
    | some (handlers, s) =>
      match goOnAll (setting handlers (s.optionsOf options)) calls ⟨s, {}⟩ with
      | none => (.tooDeep, s)
      | some (values, t) => (.calls values, t.world)

/-- Does steps one after the other. -/
def run : Session → List Step → List Answer
  | _, [] => []
  | s, step :: rest =>
    let (answer, s) := s.step step
    answer :: run s rest

end Session

/-- A session at its beginning. -/
def Session.start (tracing : Bool) : Session := ⟨∅, { tracing }⟩

end SyntaxWalk.Scenario
