/-
What the programs of handlers do: each action is a script, and a program runs its actions until one
fails.
-/
import SyntaxWalk.Scenario.Stage

namespace SyntaxWalk.Scenario

/-- The scripts of scenarios. -/
abbrev Play := Script Stage Performer

namespace Play

/-- Goes on without doing anything. -/
def skip : Play := .done (.ok ())

/-- Changes the stage. -/
def stage (f : Heap → Stage → Stage) : Play :=
  .change (fun world => { world with host := f world.heap world.host }) skip

/-- Adds an entry to the log. -/
def note (entry : Entry) : Play := stage (fun _ s => s.note entry)

/-- Looks at the world, and goes on. -/
def look (next : Heap → Stage → Play) : Play := .inspect (fun world _ => next world.heap world.host)

/-- Sees a value that is held meanwhile, and goes on. -/
def see (value : Option Value) (next : Option View → Play) : Play :=
  .inspect fun world alive =>
    let held := (value.map Value.owned).getD [] ++ world.host.handles
    next (value.map (view world.heap (alive held)))

end Play

/-- What an action knows of the call that it belongs to: the node, and the number of the call. -/
structure Self where
  node : NodeId
  call : Nat

/-- The node that an action works on. -/
def Target.node? (self : Self) (stage : Stage) : Target → Option NodeId
  | .self => some self.node
  | .register name => stage.nodes.get? name

/-- Sets a field of the target, if there is one, to a value made from the old one. -/
def assign (self : Self) (target : Target) (key : String) (expr : Expr)
    (join : Option Value → Value → Value) : Play :=
  .change
    (fun world =>
      match target.node? self world.host with
      | none => world
      | some id =>
        let (value, heap) := expr.eval world.host.nodes world.heap
        { world with heap := heap.insert id key (join (heap.get? id key) value) })
    Play.skip

/-- A list with one more item; what is no list counts as an empty one. -/
def appended (old : Option Value) (value : Value) : Value :=
  match old with
  | some (.array items) => .array (items ++ [value])
  | _ => .array [value]

/-- Removes a field of the target, if there is one, and notes the value. -/
def removeField (self : Self) (target : Target) (key : String) : Play :=
  Play.look fun heap stage =>
    let id := target.node? self stage
    let old := id.bind (heap.get? · key)
    .change
      (fun world =>
        match id with
        | some id => { world with heap := world.heap.erase id key }
        | none => world)
      (Play.see old (fun seen => Play.note (.removed key seen)))

/-- Goes on at a node. -/
def goOn (mode : Mode) (node : Option NodeId) : Play := .go mode node .done

mutual

/-- What an action does. -/
def Action.play (self : Self) : Action → Play
  | .log tag => .depth fun depth => Play.look fun heap _ =>
    Play.note (.log tag (heap.effectiveType self.node) depth ((heap.fields self.node).text? "name"))
  | .look key => Play.look fun heap _ =>
    Play.see (heap.get? self.node key) (fun seen => Play.note (.look key seen))
  | .go mode target => Play.look fun _ stage => goOn mode (target.node? self stage)
  | .goField mode key => Play.look fun heap _ =>
    goOn mode ((heap.get? self.node key).bind Value.node?)
  | .attempt actions => (playAll self actions).andThen fun
    | .ok () => Play.skip
    | .error e => .depth (fun depth => Play.note (.caught e depth))
  | .fail message => .done (.error (.handler message))
  | .failNamed name message => Play.look fun heap _ =>
    if (heap.fields self.node).text? "name" = some name then .done (.error (.handler message))
    else Play.skip
  | .first calls actions => if self.call ≤ calls then playAll self actions else Play.skip
  | .after calls actions => if calls < self.call then playAll self actions else Play.skip
  | .insert target key value => assign self target key value (fun _ v => v)
  | .append target key value => assign self target key value appended
  | .remove target key => removeField self target key
  | .bind register => Play.stage (fun _ s => s.bind register (some self.node))
  | .drop register => Play.stage (fun _ s => s.bind register none)
  | .resolve => .options fun options => Play.stage fun heap s =>
    let (keys, s) := s.resolveKeys options heap self.node (heap.effectiveType self.node)
    s.note (.keys keys)
  | .options => .options fun options =>
    Play.note (.options options.fallback.describe options.overrides.keys)
  | .walk mode spec => Play.look fun _ stage =>
    let (handlers, _) := stage.enlistAll spec
    .change (fun world => { world with host := (world.host.enlistAll spec).2 })
      (.walk mode handlers self.node .done)

/-- What actions do one after the other. -/
def playAll (self : Self) : List Action → Play
  | [] => Play.skip
  | action :: rest => (action.play self).thenOk (playAll self rest)

end

/-- What a handler does when it is called for a node. All the calls of a scenario share one budget,
and a call beyond it fails at once. -/
def Performer.behave (performer : Performer) (id : NodeId) : Play :=
  Play.look fun _ stage =>
    if stage.spent < Stage.callBudget then
      let call := stage.calls.getD performer.serial 0 + 1
      .change (fun world => { world with host := world.host.countCall performer.serial })
        (playAll ⟨id, call⟩ performer.program)
    else .done (.error (.handler "call budget exhausted"))

/-- The host of a scenario's walks. -/
def host : Host Stage Performer := ⟨Performer.behave, Stage.notify⟩

/-- How deep calls may nest in a scenario. Between two calls of handlers a walk expands each node
at most once, so the budget of calls bounds the depth long before this limit does. -/
def depthLimit : Nat := 1000000000000

/-- What stays the same during a walk of a scenario. -/
def setting (handlers : Handlers Performer) (options : Options) : Walk.Setting Stage Performer :=
  ⟨host, options, handlers⟩

/-- Walks from a node, if there is one. -/
def walkFrom (handlers : Handlers Performer) (options : Options) (mode : Mode)
    (node : Option NodeId) (world : World Stage) : Option (Outcome × World Stage) :=
  walk depthLimit (setting handlers options) mode node world

end SyntaxWalk.Scenario
