/-
Walking. A walker visits a node by calling the handler for its type, or, if there is none, by
expanding it: the child fields are resolved once, and each field is read when its turn comes and
its nodes are visited in order. The first error ends the walk. While a node is expanded the walker
remembers it, and a child that is remembered is a cycle.

Handlers may call the walker at will, so a run is given a limit on how deep calls may nest; it has
no result if the limit is reached.
-/
import Std.Data.HashSet
import SyntaxWalk.Tree.Child
import SyntaxWalk.Tree.Liveness
import SyntaxWalk.Walk.Script

namespace SyntaxWalk

/-! ## Bookkeeping -/

/-- What a walker remembers: the nodes that it expands, innermost first, and the same nodes as a
set, so that a cycle is found at once however deep the walk is. -/
structure Walker where
  ancestors : List NodeId := []
  openNodes : Std.HashSet NodeId := ∅

namespace Walker

/-- How many nodes are being expanded. -/
def depth (w : Walker) : Nat := w.ancestors.length

/-- Whether a node is being expanded. -/
def isOpen (w : Walker) (id : NodeId) : Bool := w.openNodes.contains id

/-- Remembers a node. -/
def enter (w : Walker) (id : NodeId) : Walker := ⟨id :: w.ancestors, w.openNodes.insert id⟩

/-- Forgets the innermost node. It leaves the set only if it was `opened` by this expansion: a
handler may expand a node again while it is being expanded. -/
def leave (w : Walker) (id : NodeId) (opened : Bool) : Walker :=
  ⟨w.ancestors.tail, if opened then w.openNodes.erase id else w.openNodes⟩

end Walker

/-- Nodes that a call under way keeps alive: one that it was given, or those in the places of a
field that it has not finished. -/
inductive Hold where
  | node (id : NodeId)
  | slots (places : List Slot)

/-- The nodes that calls under way keep alive. -/
def Hold.nodes (held : List Hold) : List NodeId :=
  held.flatMap fun
    | .node id => [id]
    | .slots places => places.filterMap Slot.node?

namespace Walk

variable {σ α : Type}

/-- What stays the same during a walk. -/
structure Setting (σ α : Type) where
  host : Host σ α
  options : Options
  handlers : Handlers α

/-- What changes during a walk. -/
structure State (σ : Type) where
  world : World σ
  walker : Walker

/-- What a call results in: an outcome and a state, or nothing if calls nest too deep. -/
abbrev Result (σ : Type) := Option (Outcome × State σ)

/-- Answers a request to go on at a node, which the caller holds along with all that is held. -/
abbrev Call (σ α : Type) :=
  Setting σ α → List Hold → Mode → NodeId → State σ → Result σ

/-! ## Expanding a node

In all that follows, requests to go on at another node are answered by `call`. -/

/-- Visits a child, unless it is being expanded. -/
def walkChild (call : Call σ α) (setting : Setting σ α) (held : List Hold) (type key : String)
    (child : NodeId) (s : State σ) : Result σ :=
  if s.walker.isOpen child then some (.error (.cyclicChild type key), s)
  else call setting held .visit child s

/-- Visits the nodes in the places of a field, in order. -/
def walkSlots (call : Call σ α) (setting : Setting σ α) (held : List Hold) (type key : String)
    (properties : Bool) : List Slot → State σ → Result σ
  | [], s => some (.ok (), s)
  | slot :: rest, s =>
    match slot.visitable? properties with
    | none => walkSlots call setting held type key properties rest s
    | some child =>
      match walkChild call setting (.slots (slot :: rest) :: held) type key child s with
      | some (.ok (), s) => walkSlots call setting held type key properties rest s
      | result => result

/-- Visits the children in a field. A lone node without a type is passed over. -/
def walkField (call : Call σ α) (setting : Setting σ α) (held : List Hold) (id : NodeId)
    (type key : String) (s : State σ) : Result σ :=
  match s.world.heap.child id key with
  | .absent => some (.ok (), s)
  | .one slot => walkSlots call setting held type key false [slot] s
  | .many slots => walkSlots call setting held type key (isPropertyList type key) slots s

/-- Visits the children in fields, in order. -/
def walkFields (call : Call σ α) (setting : Setting σ α) (held : List Hold) (id : NodeId)
    (type : String) : List String → State σ → Result σ
  | [], s => some (.ok (), s)
  | key :: rest, s =>
    match walkField call setting held id type key s with
    | some (.ok (), s) => walkFields call setting held id type rest s
    | result => result

/-- Passes a notice to the host. -/
def notify (setting : Setting σ α) (notice : Notice) (s : State σ) : State σ :=
  { s with world.host := setting.host.notify notice s.world.heap s.world.host }

/-- Passes to the host what resolving the child fields of a node gives notice of. -/
def announce (setting : Setting σ α) (id : NodeId) (type : String) (s : State σ) : State σ :=
  match setting.options.notice? id type with
  | some notice => notify setting notice s
  | none => s

/-- Visits the children in fields of a node, which is remembered meanwhile. -/
def walkInside (call : Call σ α) (setting : Setting σ α) (held : List Hold) (id : NodeId)
    (type : String) (keys : List String) (s : State σ) : Result σ :=
  -- Asked before the children are visited, so that the set has one owner when it grows.
  let opened := !s.walker.isOpen id
  match walkFields call setting (.node id :: held) id type keys
      { s with walker := s.walker.enter id } with
  | none => none
  | some (outcome, t) => some (outcome, { t with walker := t.walker.leave id opened })

/-- Expands a node that is handled under the given type. The child fields are resolved first, and
nothing is remembered if that fails. -/
def expand (call : Call σ α) (setting : Setting σ α) (held : List Hold) (id : NodeId)
    (type : String) (s : State σ) : Result σ :=
  match setting.options.resolveKeys s.world.heap id type with
  | .error e => some (.error e, announce setting id type s)
  | .ok keys => walkInside call setting held id type keys (announce setting id type s)

/-! ## Handlers -/

/-- Whether a node is alive, given the handles of calls under way and of the host. -/
def alive (heap : Heap) (held : List Hold) : Liveness :=
  fun handles => heap.isAlive (handles ++ Hold.nodes held)

/-- Runs a script. A walk that it starts has a walker of its own. -/
def runScript (call : Call σ α) (setting : Setting σ α) (held : List Hold) :
    Script σ α → State σ → Result σ
  | .done outcome, s => some (outcome, s)
  | .inspect next, s => runScript call setting held (next s.world (alive s.world.heap held)) s
  | .change f next, s => runScript call setting held next { s with world := f s.world }
  | .depth next, s => runScript call setting held (next s.walker.depth) s
  | .options next, s => runScript call setting held (next setting.options) s
  | .go _ none next, s => runScript call setting held (next (.ok ())) s
  | .go mode (some id) next, s =>
    match call setting (.node id :: held) mode id s with
    | none => none
    | some (outcome, s) => runScript call setting held (next outcome) s
  | .walk mode handlers id next, s =>
    match call { setting with handlers } (.node id :: held) mode id { s with walker := {} } with
    | none => none
    | some (outcome, t) =>
      runScript call setting held (next outcome) { t with walker := s.walker }

/-- Goes on at a node: visits it, or expands it whatever its handler. -/
def respond (call : Call σ α) : Call σ α
  | setting, held, .visit, id, s =>
    let type := s.world.heap.effectiveType id
    match setting.handlers.get? type with
    | some handler =>
      runScript call setting held (setting.host.behave handler id)
        (notify setting (.dispatching type) s)
    | none => expand call setting held id type s
  | setting, held, .children, id, s =>
    expand call setting held id (s.world.heap.effectiveType id) s

/-- Goes on at a node, with calls nested at most `limit` deep. -/
def run : Nat → Call σ α
  | 0 => fun _ _ _ _ _ => none
  | limit + 1 => respond (run limit)

end Walk

/-! ## Walks -/

variable {σ α : Type}

/-- Has a walker go on at a node, if there is one. -/
def Walker.go (limit : Nat) (setting : Walk.Setting σ α) (mode : Mode) (node : Option NodeId)
    (s : Walk.State σ) : Walk.Result σ :=
  match node with
  | none => some (.ok (), s)
  | some id => Walk.run limit setting [.node id] mode id s

/-- Walks from a node, if there is one, with a new walker. -/
def walk (limit : Nat) (setting : Walk.Setting σ α) (mode : Mode) (node : Option NodeId)
    (world : World σ) : Option (Outcome × World σ) :=
  (Walker.go limit setting mode node ⟨world, {}⟩).map fun (outcome, s) => (outcome, s.world)

end SyntaxWalk
