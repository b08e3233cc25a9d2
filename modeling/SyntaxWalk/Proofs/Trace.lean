/-
Traces of walks. A traced run goes on as a run does and lists the moments that it passes: the calls
of handlers and each of their steps, the keys that are resolved, the fields that are read, the
children that are checked, and the ends of expansions. How the nodes that are being expanded are
remembered is left open, so that two ways of doing so can be compared; with the way of `Walker` the
result of a traced run is that of the run. A run that nests too deep has no result, but it has the
moments up to there.
-/
import SyntaxWalk.Walk.Walker

namespace SyntaxWalk

/-- A way of remembering the nodes that are being expanded. -/
structure Keeping (κ : Type) where
  new : κ
  depth : κ → Nat
  isOpen : κ → NodeId → Bool
  enter : κ → NodeId → κ
  leave : κ → NodeId → Bool → κ

/-- The nodes in order, and the same nodes as a set. -/
def Walker.keeping : Keeping Walker :=
  ⟨{}, Walker.depth, Walker.isOpen, Walker.enter, Walker.leave⟩

namespace Trace

variable {σ α κ : Type}

/-! ## Moments -/

/-- What a walk is about to do. -/
inductive Deed (α : Type) where
  /-- A handler is called for a node. -/
  | call (handler : α) (node : NodeId)
  /-- A handler takes its next step. -/
  | act
  /-- The child fields of a node, handled under the given type, are resolved. -/
  | resolve (node : NodeId) (type : String)
  /-- The turn of a field has come. -/
  | read (node : NodeId) (type key : String)
  /-- A child under the given type and key is visited, or refused because it is being expanded. -/
  | check (type key : String) (child : NodeId) (refused : Bool)
  /-- The expansion of a node ends. -/
  | leave (node : NodeId)

/-- What changes during a walk: the world, and what is remembered. -/
structure State (σ κ : Type) where
  world : World σ
  book : κ

/-- A moment of a walk: what is about to be done, the nodes that calls under way hold, and the state
in which it is done. -/
structure Moment (σ α κ : Type) where
  deed : Deed α
  held : List Hold
  state : State σ κ

/-- The moments of a run, and how it ends if it does not nest too deep. -/
structure Run (σ α κ β : Type) where
  moments : List (Moment σ α κ)
  result : Option β

namespace Run

variable {β γ : Type}

/-- A run without moments. -/
def pure (b : β) : Run σ α κ β := ⟨[], some b⟩

/-- A run with one more moment at its start. -/
def mark (m : Moment σ α κ) (x : Run σ α κ β) : Run σ α κ β := ⟨m :: x.moments, x.result⟩

/-- A run that goes on after another one. -/
def bind (x : Run σ α κ β) (f : β → Run σ α κ γ) : Run σ α κ γ where
  moments := x.moments ++ (match x.result with | none => [] | some b => (f b).moments)
  result := x.result.bind fun b => (f b).result

@[simp] theorem result_mark (m : Moment σ α κ) (x : Run σ α κ β) :
    (x.mark m).result = x.result := rfl

@[simp] theorem result_bind (x : Run σ α κ β) (f : β → Run σ α κ γ) :
    (x.bind f).result = x.result.bind fun b => (f b).result := rfl

end Run

/-- The run of a call. -/
abbrev CallRun (σ α κ : Type) := Run σ α κ (Outcome × State σ κ)

/-- Goes on after a call, unless it fails. -/
def CallRun.thenOk (x : CallRun σ α κ) (next : State σ κ → CallRun σ α κ) : CallRun σ α κ :=
  x.bind fun
    | (.ok (), s) => next s
    | (.error e, s) => .pure (.error e, s)

/-- The run of a call, with only the world of its last state. -/
def CallRun.inWorld (x : CallRun σ α κ) : Run σ α κ (Outcome × World σ) :=
  x.bind fun (outcome, s) => .pure (outcome, s.world)

/-- Forgetting the walker in the end leaves the moments as they are. -/
theorem moments_inWorld (x : CallRun σ α κ) : x.inWorld.moments = x.moments := by
  obtain ⟨ms, _ | _⟩ := x <;> simp [CallRun.inWorld, Run.bind, Run.pure]

/-- Answers a request to go on at a node. -/
abbrev Call (σ α κ : Type) :=
  Walk.Setting σ α → List Hold → Mode → NodeId → State σ κ → CallRun σ α κ

/-! ## Traced runs -/

section

variable (keeping : Keeping κ) (call : Call σ α κ) (setting : Walk.Setting σ α)

/-- Visits a child, unless it is being expanded. -/
def walkChild (held : List Hold) (type key : String) (child : NodeId) (s : State σ κ) :
    CallRun σ α κ :=
  .mark ⟨.check type key child (keeping.isOpen s.book child), held, s⟩ <|
    if keeping.isOpen s.book child then .pure (.error (.cyclicChild type key), s)
    else call setting held .visit child s

/-- Visits the nodes in the places of a field. -/
def walkSlots (held : List Hold) (type key : String) (properties : Bool) :
    List Slot → State σ κ → CallRun σ α κ
  | [], s => .pure (.ok (), s)
  | slot :: rest, s =>
    match slot.visitable? properties with
    | none => walkSlots held type key properties rest s
    | some child =>
      (walkChild keeping call setting (.slots (slot :: rest) :: held) type key child s).thenOk
        (walkSlots held type key properties rest)

/-- Visits the children in a field. -/
def walkField (held : List Hold) (id : NodeId) (type key : String) (s : State σ κ) :
    CallRun σ α κ :=
  .mark ⟨.read id type key, held, s⟩ <|
    match s.world.heap.child id key with
    | .absent => .pure (.ok (), s)
    | .one slot => walkSlots keeping call setting held type key false [slot] s
    | .many slots =>
      walkSlots keeping call setting held type key (isPropertyList type key) slots s

/-- Visits the children in fields. -/
def walkFields (held : List Hold) (id : NodeId) (type : String) :
    List String → State σ κ → CallRun σ α κ
  | [], s => .pure (.ok (), s)
  | key :: rest, s =>
    (walkField keeping call setting held id type key s).thenOk (walkFields held id type rest)

/-- Passes a notice to the host. -/
def notify (notice : Notice) (s : State σ κ) : State σ κ :=
  { s with world.host := setting.host.notify notice s.world.heap s.world.host }

/-- Passes to the host what resolving the child fields of a node gives notice of. -/
def announce (id : NodeId) (type : String) (s : State σ κ) : State σ κ :=
  match setting.options.notice? id type with
  | some notice => notify setting notice s
  | none => s

/-- Visits the children in fields of a node, which is remembered meanwhile. -/
def walkInside (held : List Hold) (id : NodeId) (type : String) (keys : List String)
    (s : State σ κ) : CallRun σ α κ :=
  (walkFields keeping call setting (.node id :: held) id type keys
      ⟨s.world, keeping.enter s.book id⟩).bind fun (outcome, t) =>
    .mark ⟨.leave id, .node id :: held, t⟩ <|
      .pure (outcome, ⟨t.world, keeping.leave t.book id (!keeping.isOpen s.book id)⟩)

/-- Expands a node that is handled under the given type. -/
def expand (held : List Hold) (id : NodeId) (type : String) (s : State σ κ) : CallRun σ α κ :=
  .mark ⟨.resolve id type, held, s⟩ <|
    match setting.options.resolveKeys s.world.heap id type with
    | .error e => .pure (.error e, announce setting id type s)
    | .ok keys => walkInside keeping call setting held id type keys (announce setting id type s)

/-- Runs a script. -/
def runScript (held : List Hold) : Script σ α → State σ κ → CallRun σ α κ
  | .done outcome, s => .mark ⟨.act, held, s⟩ (.pure (outcome, s))
  | .inspect next, s =>
    .mark ⟨.act, held, s⟩ (runScript held (next s.world (Walk.alive s.world.heap held)) s)
  | .change f next, s => .mark ⟨.act, held, s⟩ (runScript held next { s with world := f s.world })
  | .depth next, s => .mark ⟨.act, held, s⟩ (runScript held (next (keeping.depth s.book)) s)
  | .options next, s => .mark ⟨.act, held, s⟩ (runScript held (next setting.options) s)
  | .go _ none next, s => .mark ⟨.act, held, s⟩ (runScript held (next (.ok ())) s)
  | .go mode (some id) next, s =>
    .mark ⟨.act, held, s⟩ <|
      (call setting (.node id :: held) mode id s).bind fun (outcome, t) =>
        runScript held (next outcome) t
  | .walk mode handlers id next, s =>
    .mark ⟨.act, held, s⟩ <|
      (call { setting with handlers } (.node id :: held) mode id ⟨s.world, keeping.new⟩).bind
        fun (outcome, t) => runScript held (next outcome) ⟨t.world, s.book⟩

end

/-- Goes on at a node: visits it, or expands it whatever its handler. -/
def respond (keeping : Keeping κ) (call : Call σ α κ) : Call σ α κ
  | setting, held, .visit, id, s =>
    let type := s.world.heap.effectiveType id
    match setting.handlers.get? type with
    | some handler =>
      .mark ⟨.call handler id, held, s⟩ <|
        runScript keeping call setting held (setting.host.behave handler id)
          (notify setting (.dispatching type) s)
    | none => expand keeping call setting held id type s
  | setting, held, .children, id, s =>
    expand keeping call setting held id (s.world.heap.effectiveType id) s

/-- Goes on at a node, with calls nested at most `limit` deep. -/
def run (keeping : Keeping κ) : Nat → Call σ α κ
  | 0 => fun _ _ _ _ _ => ⟨[], none⟩
  | limit + 1 => respond keeping (run keeping limit)

/-- Walks from a node, if there is one, with nothing remembered at first. -/
def walk (keeping : Keeping κ) (limit : Nat) (setting : Walk.Setting σ α) (mode : Mode)
    (node : Option NodeId) (world : World σ) : Run σ α κ (Outcome × World σ) :=
  match node with
  | none => .pure (.ok (), world)
  | some id => (run keeping limit setting [.node id] mode id ⟨world, keeping.new⟩).inWorld

/-- The calls of handlers among moments: the handler, the node, and the depth. -/
def calls (keeping : Keeping κ) (moments : List (Moment σ α κ)) : List (α × NodeId × Nat) :=
  moments.filterMap fun m =>
    match m.deed with
    | .call handler node => some (handler, node, keeping.depth m.state.book)
    | _ => none

/-! ## The result of a traced run -/

/-- The state of a run, for its trace. -/
def ofState (s : Walk.State σ) : State σ Walker := ⟨s.world, s.walker⟩

@[simp] theorem world_ofState (s : Walk.State σ) : (ofState s).world = s.world := rfl

/-- How a run ends, for its trace. -/
def ofResult (r : Walk.Result σ) : Option (Outcome × State σ Walker) :=
  r.map fun (outcome, s) => (outcome, ofState s)

/-- A traced answer ends as the answer does. -/
def Traces (traced : Call σ α Walker) (call : Walk.Call σ α) : Prop :=
  ∀ (setting : Walk.Setting σ α) (held : List Hold) (mode : Mode) (id : NodeId) (s : Walk.State σ),
    (traced setting held mode id (ofState s)).result = ofResult (call setting held mode id s)

section

variable {traced : Call σ α Walker} {call : Walk.Call σ α} {setting : Walk.Setting σ α}
  {held : List Hold}

/-- After a failure nothing more is done. -/
theorem result_thenOk (x : CallRun σ α κ) (next : State σ κ → CallRun σ α κ) :
    (x.thenOk next).result = x.result.bind fun
      | (.ok (), s) => (next s).result
      | (.error e, s) => some (.error e, s) := by
  unfold CallRun.thenOk
  rw [Run.result_bind]
  congr 1
  funext r
  rcases r with ⟨_ | _, s⟩ <;> rfl

theorem walkChild_result (hc : Traces traced call) (type key : String) (child : NodeId)
    (s : Walk.State σ) :
    (walkChild Walker.keeping traced setting held type key child (ofState s)).result =
      ofResult (Walk.walkChild call setting held type key child s) := by
  unfold walkChild Walk.walkChild
  rw [Run.result_mark]
  show (if s.walker.isOpen child = true then _ else _ : CallRun σ α Walker).result = _
  split
  · rfl
  · exact hc _ _ _ _ _

/-- Places are gone through with and without a trace alike: by induction on the places. -/
theorem walkSlots_result (hc : Traces traced call) (type key : String) (properties : Bool) :
    ∀ (slots : List Slot) (s : Walk.State σ),
      (walkSlots Walker.keeping traced setting held type key properties slots (ofState s)).result =
        ofResult (Walk.walkSlots call setting held type key properties slots s)
  | [], _ => rfl
  | slot :: rest, s => by
    unfold walkSlots Walk.walkSlots
    cases slot.visitable? properties with
    | none => exact walkSlots_result hc type key properties rest s
    | some child =>
      simp only
      rw [result_thenOk, walkChild_result hc]
      rcases Walk.walkChild call setting (.slots (slot :: rest) :: held) type key child s with
        _ | ⟨_ | _, t⟩
      · rfl
      · rfl
      · exact walkSlots_result hc type key properties rest t

theorem walkField_result (hc : Traces traced call) (id : NodeId) (type key : String)
    (s : Walk.State σ) :
    (walkField Walker.keeping traced setting held id type key (ofState s)).result =
      ofResult (Walk.walkField call setting held id type key s) := by
  unfold walkField Walk.walkField
  rw [Run.result_mark, world_ofState]
  cases s.world.heap.child id key with
  | absent => rfl
  | one slot => exact walkSlots_result hc _ _ _ _ s
  | many slots => exact walkSlots_result hc _ _ _ _ s

/-- Fields are gone through with and without a trace alike: by induction on their names. -/
theorem walkFields_result (hc : Traces traced call) (id : NodeId) (type : String) :
    ∀ (keys : List String) (s : Walk.State σ),
      (walkFields Walker.keeping traced setting held id type keys (ofState s)).result =
        ofResult (Walk.walkFields call setting held id type keys s)
  | [], _ => rfl
  | key :: rest, s => by
    unfold walkFields Walk.walkFields
    rw [result_thenOk, walkField_result hc]
    rcases Walk.walkField call setting held id type key s with _ | ⟨_ | _, t⟩
    · rfl
    · rfl
    · exact walkFields_result hc id type rest t

/-- The node is entered and left in the same states. -/
theorem walkInside_result (hc : Traces traced call) (id : NodeId) (type : String)
    (keys : List String) (s : Walk.State σ) :
    (walkInside Walker.keeping traced setting held id type keys (ofState s)).result =
      ofResult (Walk.walkInside call setting held id type keys s) := by
  unfold walkInside Walk.walkInside
  have h : (walkFields Walker.keeping traced setting (.node id :: held) id type keys
      ⟨s.world, s.walker.enter id⟩).result = _ :=
    walkFields_result hc id type keys { s with walker := s.walker.enter id }
  rw [Run.result_bind]
  refine (congrArg (Option.bind · _) h).trans ?_
  simp only
  cases Walk.walkFields call setting (.node id :: held) id type keys
    { s with walker := s.walker.enter id } <;> rfl

theorem announce_ofState (setting : Walk.Setting σ α) (id : NodeId) (type : String)
    (s : Walk.State σ) :
    announce setting id type (ofState s) = ofState (Walk.announce setting id type s) := by
  unfold announce Walk.announce
  cases setting.options.notice? id type <;> rfl

theorem expand_result (hc : Traces traced call) (id : NodeId) (type : String) (s : Walk.State σ) :
    (expand Walker.keeping traced setting held id type (ofState s)).result =
      ofResult (Walk.expand call setting held id type s) := by
  unfold expand Walk.expand
  rw [Run.result_mark, announce_ofState, world_ofState]
  cases setting.options.resolveKeys s.world.heap id type with
  | error e => rfl
  | ok keys => exact walkInside_result hc id type keys _

/-- A script takes the same steps, since all that it learns is the same. -/
theorem runScript_result (hc : Traces traced call) (script : Script σ α) (s : Walk.State σ) :
    (runScript Walker.keeping traced setting held script (ofState s)).result =
      ofResult (Walk.runScript call setting held script s) := by
  induction script generalizing s with
  | done outcome => rfl
  | inspect next ih => exact ih _ _ s
  | change f next ih => exact ih { s with world := f s.world }
  | depth next ih => exact ih _ s
  | options next ih => exact ih _ s
  | go mode node next ih =>
    cases node with
    | none => exact ih _ s
    | some id =>
      unfold runScript Walk.runScript
      rw [Run.result_mark, Run.result_bind, hc]
      rcases call setting (.node id :: held) mode id s with _ | ⟨outcome, t⟩
      · rfl
      · exact ih outcome t
  | walk mode handlers id next ih =>
    unfold runScript Walk.runScript
    rw [Run.result_mark, Run.result_bind]
    -- The walk has a walker of its own; afterwards the script goes on with the one that it had.
    have h := hc { setting with handlers } (.node id :: held) mode id { s with walker := {} }
    refine (congrArg (Option.bind · _) h).trans ?_
    rcases call { setting with handlers } (.node id :: held) mode id { s with walker := {} } with
      _ | ⟨outcome, t⟩
    · rfl
    · exact ih outcome { t with walker := s.walker }

end

/-- If inner calls end as they do without a trace, so does the answer to a call. -/
theorem respond_result {traced : Call σ α Walker} {call : Walk.Call σ α} (hc : Traces traced call) :
    Traces (respond Walker.keeping traced) (Walk.respond call) := by
  intro setting held mode id s
  cases mode with
  | visit =>
    simp only [respond, Walk.respond, world_ofState]
    cases setting.handlers.get? (s.world.heap.effectiveType id) with
    | none => exact expand_result hc id _ s
    | some handler => exact runScript_result hc _ (Walk.notify setting _ s)
  | children => exact expand_result hc id _ s

/-- Runs with a trace end as those without one do, however deep calls may nest. -/
theorem run_result :
    ∀ (limit : Nat), Traces (run Walker.keeping limit) (Walk.run limit : Walk.Call σ α)
  | 0 => fun _ _ _ _ _ => rfl
  | limit + 1 => respond_result (run_result limit)

/-- The traced walk of a walker ends as the walk does. -/
theorem walk_result (limit : Nat) (setting : Walk.Setting σ α) (mode : Mode) (node : Option NodeId)
    (world : World σ) :
    (walk Walker.keeping limit setting mode node world).result =
      SyntaxWalk.walk limit setting mode node world := by
  cases node with
  | none => rfl
  | some id =>
    unfold walk SyntaxWalk.walk Walker.go CallRun.inWorld
    have h := run_result limit setting [.node id] mode id ⟨world, {}⟩
    rw [Run.result_bind]
    refine (congrArg (Option.bind · _) h).trans ?_
    simp only
    cases Walk.run limit setting [.node id] mode id ⟨world, {}⟩ <;> rfl

/-- A walk ends as the run does of which it is made. -/
theorem walk_eq_of_run {limit : Nat} {setting : Walk.Setting σ α} {mode : Mode} {root : NodeId}
    {world : World σ} {outcome : Outcome} {t : State σ Walker}
    (h : (run Walker.keeping limit setting [.node root] mode root ⟨world, {}⟩).result =
      some (outcome, t)) :
    SyntaxWalk.walk limit setting mode (some root) world = some (outcome, t.world) := by
  rw [← walk_result]
  unfold walk CallRun.inWorld
  rw [Run.result_bind]
  exact (congrArg (Option.bind · _) h).trans rfl

end Trace

end SyntaxWalk
