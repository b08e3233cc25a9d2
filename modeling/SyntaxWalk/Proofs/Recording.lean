/-
Handlers that take notes. Each of them notes the call and then returns, or has the walker expand its
node and returns how that ended; besides, it may look around, and change what is not a node and not
a note. A walk with such handlers follows the stops of its plan: the notes are the calls up to the
first fault, and that fault is how the walk ends.
-/
import SyntaxWalk.Proofs.Restore
import SyntaxWalk.Proofs.Stops

namespace SyntaxWalk

/-! ## Scripts that take notes -/

section

variable {σ α : Type} (heap : Heap) (options : Options) (log : σ → List (NodeId × Nat))
  (depth : Nat)

/-- Without changing a node or the notes, a script comes to one with the given property, when it
runs on the given heap, under the given options and at the given depth. -/
inductive Script.Leads (P : Script σ α → Prop) : Script σ α → Prop where
  | here {script} (h : P script) : Leads P script
  | inspect {next} (h : ∀ world alive, world.heap = heap → Leads P (next world alive)) :
    Leads P (.inspect next)
  | change {f next} (hf : ∀ world, world.heap = heap →
      (f world).heap = heap ∧ log (f world).host = log world.host) (h : Leads P next) :
    Leads P (.change f next)
  | depth {next} (h : Leads P (next depth)) : Leads P (.depth next)
  | options {next} (h : Leads P (next options)) : Leads P (.options next)

/-- A script that returns the given outcome. -/
def Script.Returns (outcome : Outcome) : Script σ α → Prop :=
  Script.Leads heap options log depth (· = .done outcome)

/-- A script that returns, or expands the given node and returns how that ended. -/
def Script.Continues (id : NodeId) (prune : Bool) : Script σ α → Prop :=
  Script.Leads heap options log depth fun script =>
    if prune then script = .done (.ok ())
    else ∃ next, script = .go .children (some id) next ∧
      ∀ outcome, Script.Returns heap options log depth outcome (next outcome)

/-- A script that notes the node and the depth before it continues. -/
def Script.Records (id : NodeId) (prune : Bool) : Script σ α → Prop :=
  Script.Leads heap options log depth fun script => ∃ f next, script = .change f next ∧
    (∀ world, world.heap = heap →
      (f world).heap = heap ∧ log (f world).host = log world.host ++ [(id, depth)]) ∧
    Script.Continues heap options log depth id prune next

end

/-- A host whose handlers note their calls and go by a plan. -/
structure Recorder (σ : Type) {α : Type} (plan : Plan α) where
  host : Host σ α
  /-- The notes: nodes, with the depth at which their handlers were called. -/
  log : σ → List (NodeId × Nat)
  log_notify : ∀ notice heap state, log (host.notify notice heap state) = log state
  records : ∀ handler id depth, Script.Records plan.heap plan.options log depth id
    (plan.prunes handler id) (host.behave handler id)

/-- What stays the same during the walks of a recorder. -/
def Recorder.setting {σ α : Type} {plan : Plan α} (recorder : Recorder σ plan) : Walk.Setting σ α :=
  ⟨recorder.host, plan.options, plan.handlers⟩

/-! ## Entries and nodes to visit -/

theorem fieldEntries_eq (heap : Heap) (id : NodeId) (type : String) (field : Nat) (key : String) :
    fieldEntries heap id type field key =
      slotEntries field key (heap.placesIn id type key).1 0 (heap.placesIn id type key).2 := by
  unfold fieldEntries Heap.placesIn
  cases heap.child id key <;> rfl

/-- But for their numbers, the entries in places are the nodes to visit there. -/
theorem map_slotEntries (field : Nat) (key : String) (properties : Bool) :
    ∀ (slots : List Slot) (first : Nat),
      ((slotEntries field key properties first slots).map fun e => (e.key, e.node)) =
        (slotCandidates key properties slots).map fun c => (c.key, c.child)
  | [], _ => rfl
  | slot :: rest, first => by
    have ih := map_slotEntries field key properties rest (first + 1)
    cases hv : slot.visitable? properties with
    | none => rw [slotEntries_cons_none hv, slotCandidates_cons_none hv, ih]
    | some child =>
      rw [slotEntries_cons_some hv, slotCandidates_cons_some hv, List.map_cons, List.map_cons, ih]

/-- But for their numbers, the entries in fields are the nodes to visit there. -/
theorem map_keyEntries (heap : Heap) (id : NodeId) (type : String) :
    ∀ (keys : List String) (first : Nat),
      ((keyEntries heap id type first keys).map fun e => (e.key, e.node)) =
        (keys.flatMap (heap.candidates id type)).map fun c => (c.key, c.child)
  | [], _ => rfl
  | key :: rest, first => by
    rw [keyEntries_cons, List.flatMap_cons, List.map_append, List.map_append, fieldEntries_eq,
      map_slotEntries, Heap.slotCandidates_placesIn, map_keyEntries heap id type rest (first + 1)]

/-! ## Following stops -/

/-- The notes of the calls at the ends of paths, when the first node is at the given depth. -/
def noted (n : NodeId) (depth : Nat) (paths : List Path) : List (NodeId × Nat) :=
  paths.map fun path => (Path.last n path, depth + path.length)

theorem noted_append (n : NodeId) (depth : Nat) (a b : List Path) :
    noted n depth (a ++ b) = noted n depth a ++ noted n depth b := List.map_append

theorem noted_under (n : NodeId) (depth : Nat) (e : Entry) (paths : List Path) :
    noted n depth (paths.map ([e] ++ ·)) = noted e.node (depth + 1) paths := by
  unfold noted
  rw [List.map_map]
  refine List.map_congr_left fun path _ => ?_
  simp only [Function.comp_apply, List.singleton_append, Path.last_cons, List.length_cons]
  rw [Nat.add_right_comm, Nat.add_assoc]

namespace Recorder

open Trace

variable {σ α : Type} {plan : Plan α} (recorder : Recorder σ plan)

/-- A run ends as the stops say, with the nodes as they were and the given ones being expanded, and
the calls among the stops are noted. -/
def Follows (nodes : List NodeId) (n : NodeId) (depth : Nat) (stops : List Stop)
    (s : State σ Walker) (x : CallRun σ α Walker) : Prop :=
  ∃ t, x.result = some (Stop.outcome stops, t) ∧ Standing plan.heap nodes t ∧
    recorder.log t.world.host = recorder.log s.world.host ++ noted n depth (Stop.calls stops)

section

variable {recorder} {nodes : List NodeId} {n : NodeId} {depth : Nat} {stops : List Stop}
  {s : State σ Walker} {x : CallRun σ α Walker}

theorem follows_nil (hs : Standing plan.heap nodes s) :
    recorder.Follows nodes n depth [] s (.pure (.ok (), s)) :=
  ⟨s, rfl, hs, (List.append_nil _).symm⟩

/-- A run that fails at once notes nothing. -/
theorem follows_fault (hs : Standing plan.heap nodes s) (path : Path) (e : VisitError) :
    recorder.Follows nodes n depth [.fault path e] s (.pure (.error e, s)) :=
  ⟨s, rfl, hs, (List.append_nil _).symm⟩

/-- A run goes on unless it failed, and follows the stops that come next. -/
theorem Follows.thenOk {more : List Stop} {next : State σ Walker → CallRun σ α Walker}
    (h : recorder.Follows nodes n depth stops s x)
    (hnext : ∀ t, Standing plan.heap nodes t → recorder.Follows nodes n depth more t (next t)) :
    recorder.Follows nodes n depth (stops ++ more) s (x.thenOk next) := by
  obtain ⟨t, hx, ht, hlog⟩ := h
  unfold Follows
  rw [result_thenOk, hx, Stop.outcome_append, Stop.calls_append, noted_append]
  cases ho : Stop.outcome stops with
  | error e => exact ⟨t, rfl, ht, by rw [hlog]; simp [noted]⟩
  | ok _ =>
    obtain ⟨u, hu, hstanding, hlogu⟩ := hnext t ht
    exact ⟨u, hu, hstanding, by rw [hlogu, hlog, List.append_assoc]⟩

/-- The stops from a child on are stops under its entry. -/
theorem Follows.under {e : Entry} (h : recorder.Follows nodes e.node (depth + 1) stops s x) :
    recorder.Follows nodes n depth (stops.map (Stop.under [e])) s x := by
  obtain ⟨t, hx, ht, hlog⟩ := h
  refine ⟨t, by rw [Stop.outcome_under]; exact hx, ht, ?_⟩
  rw [Stop.calls_under, noted_under]
  exact hlog

end

/-! ## Fields -/

section

variable (call : Call σ α Walker) (next : List NodeId → NodeId → List Stop)

/-- Visits of a child, while the given nodes are being expanded, follow the stops from there on. -/
def Answers (nodes : List NodeId) (child : NodeId) : Prop :=
  ∀ held s, Standing plan.heap nodes s →
    recorder.Follows nodes child nodes.length (next nodes child) s
      (call recorder.setting held .visit child s)

variable {call next} {outer : List NodeId} {n : NodeId} (held : List Hold)

/-- A child is refused just if there is a fault at its entry. -/
theorem walkChild_follows {e : Entry} {s : State σ Walker}
    (hs : Standing plan.heap (n :: outer) s)
    (hcall : e.node ∉ n :: outer → recorder.Answers call next (n :: outer) e.node) :
    recorder.Follows (n :: outer) n outer.length (plan.stopsUnder next outer n e) s
      (walkChild Walker.keeping call recorder.setting held (plan.type n) e.key e.node s) := by
  unfold walkChild Plan.stopsUnder
  by_cases hb : e.node ∈ n :: outer
  · rw [if_pos hb, if_pos ((hs.isOpen_iff _).2 hb)]
    exact follows_fault hs _ _
  · rw [if_neg hb, if_neg fun h => hb ((hs.isOpen_iff _).1 h)]
    exact (hcall hb held s hs).under

variable (next outer n) in
/-- Stops are put together as the runs are that follow them. Nodes to visit have no numbers, as
entries have; any entries with these nodes will do. -/
theorem chains_follows :
    Chains (Standing plan.heap (n :: outer)) fun cs s (x : CallRun σ α Walker) =>
      ∀ entries : List Entry,
        (entries.map fun e => (e.key, e.node)) = (cs.map fun c : Candidate => (c.key, c.child)) →
        recorder.Follows (n :: outer) n outer.length
          (entries.flatMap (plan.stopsUnder next outer n)) s x where
  done hs entries h := by
    obtain rfl := List.map_eq_nil_iff.1 h
    exact follows_nil hs
  thenOk hx hf entries h := by
    rw [List.map_append] at h
    obtain ⟨first, rest, rfl, hfirst, hrest⟩ := List.map_eq_append_iff.1 h
    rw [List.flatMap_append]
    exact (hx first hfirst).thenOk fun t ht => hf t ht rest hrest

/-- Visiting the children in fields follows the stops under their entries. -/
theorem walkFields_follows (keys : List String) {s : State σ Walker}
    (hs : Standing plan.heap (n :: outer) s)
    (hcall : ∀ child, plan.heap.Owns n child → child ∉ n :: outer →
      recorder.Answers call next (n :: outer) child) :
    recorder.Follows (n :: outer) n outer.length
      ((keyEntries plan.heap n (plan.type n) 0 keys).flatMap (plan.stopsUnder next outer n)) s
      (walkFields Walker.keeping call recorder.setting held n (plan.type n) keys s) := by
  have hchains := chains_follows recorder next outer n
  let side : Side σ α Walker := ⟨Walker.keeping, call, recorder.setting, held⟩
  refine hchains.walkFields side (plan.heap.candidates n (plan.type n)) (fun key s hs => ?_) keys hs
    _ (map_keyEntries plan.heap n (plan.type n) keys 0)
  rw [walkField_eq, hs.heap_eq, ← Heap.slotCandidates_placesIn]
  refine hchains.walkSlots side key _ _ (fun c hc rest t ht entries hentries => ?_) hs
  obtain ⟨e, rfl, he⟩ := List.map_eq_singleton_iff.1 hentries
  obtain ⟨hkey, hnode⟩ := Prod.mk.inj he
  rw [Heap.slotCandidates_placesIn] at hc
  have hown := Heap.owns_of_mem_visitables (Heap.of_mem_candidates hc).2.1
  rw [List.flatMap_singleton]
  unfold Side.walkChild
  rw [← hkey, ← hnode]
  exact walkChild_follows recorder _ ht (hcall _ (hnode ▸ hown))

/-- An expansion follows the stops inside of the node. -/
theorem expand_follows {s : State σ Walker} (hs : Standing plan.heap outer s)
    (hcall : ∀ child, plan.heap.Owns n child → child ∉ n :: outer →
      recorder.Answers call next (n :: outer) child) :
    recorder.Follows outer n outer.length (plan.stopsInside next outer n) s
      (expand Walker.keeping call recorder.setting held n (plan.type n) s) := by
  obtain ⟨host, hw⟩ := hs
  -- The host may hear of the expansion, and does not take that for a note.
  obtain ⟨host', hannounce, hhost⟩ := announce_eq recorder.setting n (plan.type n) plan.heap host
  have hlog : recorder.log host' = recorder.log host :=
    hhost (fun later => recorder.log later = recorder.log host) rfl
      fun notice => recorder.log_notify notice _ _
  have hs' : Standing plan.heap outer _ := ⟨host', hw⟩
  unfold Plan.stopsInside
  cases hk : plan.options.resolveKeys plan.heap n (plan.type n) with
  | error e =>
    rw [expand_of_error Walker.keeping call held hk, hannounce]
    obtain ⟨t, ht, hstanding, hlogt⟩ := follows_fault hs' [] e
    exact ⟨t, ht, hstanding, hlogt.trans (congrArg (· ++ _) hlog)⟩
  | ok keys =>
    have hentries : plan.options.entries plan.heap n =
        keyEntries plan.heap n (plan.type n) 0 keys := by
      unfold Options.entries
      rw [show plan.heap.effectiveType n = plan.type n from rfl, hk]
    obtain ⟨t, ht, hstanding, hlogt⟩ :=
      walkFields_follows recorder (.node n :: held) keys (hs'.enter n) hcall
    rw [expand_of_ok Walker.keeping call held hk, hannounce]
    simp only [hentries]
    refine ⟨_, ?_, hstanding.leave hs', hlogt.trans (congrArg (· ++ _) hlog)⟩
    unfold walkInside
    rw [Run.result_mark, Run.result_bind]
    exact congrArg (Option.bind · _) ht

end

/-! ## Handlers -/

section

variable (call : Call σ α Walker) {nodes : List NodeId} (held : List Hold)

/-- A script comes to where it leads, with the nodes and the notes as they were. -/
theorem runScript_leads {P : Script σ α → Prop} {script : Script σ α}
    (h : script.Leads plan.heap plan.options recorder.log nodes.length P) {s : State σ Walker}
    (hs : Standing plan.heap nodes s) :
    ∃ script' t, P script' ∧ Standing plan.heap nodes t ∧
      recorder.log t.world.host = recorder.log s.world.host ∧
      (runScript Walker.keeping call recorder.setting held script s).result =
        (runScript Walker.keeping call recorder.setting held script' t).result := by
  induction h generalizing s with
  | here h => exact ⟨_, s, h, hs, rfl, rfl⟩
  | inspect _ ih => exact ih s.world _ hs.heap_eq hs
  | change hf _ ih =>
    obtain ⟨hheap, hlog⟩ := hf s.world hs.heap_eq
    obtain ⟨script', t, hP, ht, hlogt, hrun⟩ := ih (hs.change hheap)
    exact ⟨script', t, hP, ht, hlogt.trans hlog, hrun⟩
  | depth _ ih =>
    have hdepth : Walker.keeping.depth s.book = nodes.length := congrArg List.length hs.ancestors
    obtain ⟨script', t, hP, ht, hlog, hrun⟩ := ih hs
    rw [← hdepth] at hrun
    exact ⟨script', t, hP, ht, hlog, hrun⟩
  | options _ ih => exact ih hs

variable {call}

/-- What a handler does when it is called: it notes the call, and then it returns, or the walker
expands the node and the handler returns how that ended. -/
theorem behave_follows {inside : List Stop} {handler : α} {n : NodeId} {s : State σ Walker}
    (hs : Standing plan.heap nodes s)
    (hinside : plan.prunes handler n = false → ∀ t, Standing plan.heap nodes t →
      recorder.Follows nodes n nodes.length inside t
        (call recorder.setting (.node n :: held) .children n t)) :
    recorder.Follows nodes n nodes.length
      (.call [] :: if plan.prunes handler n then [] else inside) s
      (runScript Walker.keeping call recorder.setting held (recorder.host.behave handler n) s) := by
  -- In `s₁` the call is about to be noted, in `s₃` the handler returns or has its node expanded.
  obtain ⟨_, s₁, ⟨f, rest, rfl, hf, hrest⟩, hs₁, hlog₁, hrun₁⟩ :=
    runScript_leads recorder call held (recorder.records handler n nodes.length) hs
  obtain ⟨hheap₂, hlog₂⟩ := hf s₁.world hs₁.heap_eq
  obtain ⟨last, s₃, hlast, hs₃, hlog₃, hrun₃⟩ :=
    runScript_leads recorder call held hrest (hs₁.change hheap₂)
  have hlog : recorder.log s₃.world.host =
      recorder.log s.world.host ++ [(n, nodes.length)] := by
    rw [hlog₃, hlog₂, hlog₁]
  unfold Follows
  rw [hrun₁.trans hrun₃]
  cases hp : plan.prunes handler n with
  | true =>
    rw [hp, if_pos rfl] at hlast
    subst hlast
    exact ⟨s₃, rfl, hs₃, hlog⟩
  | false =>
    rw [hp, if_neg Bool.false_ne_true] at hlast
    obtain ⟨after, rfl, hafter⟩ := hlast
    obtain ⟨t, hrun, ht, hlogt⟩ := hinside hp s₃ hs₃
    obtain ⟨_, u, rfl, hu, hlogu, hrunu⟩ :=
      runScript_leads recorder call held (hafter (Stop.outcome inside)) ht
    refine ⟨u, ?_, hu, ?_⟩
    · unfold runScript
      rw [Run.result_mark, Run.result_bind, hrun]
      exact hrunu
    · rw [hlogu, hlogt, hlog]
      simp [Stop.calls, noted]

end

/-! ## Runs -/

/-- A visit follows the stops, if calls may nest deep enough. Each node on the way takes two calls
at most, its visit and the expansion that its handler asks for. -/
theorem run_follows : ∀ (bound : Nat) (outer : List NodeId) (n : NodeId) (limit : Nat),
    plan.remaining outer < bound → n ∉ outer → 2 * bound ≤ limit →
    recorder.Answers (run Walker.keeping limit) (plan.stops bound) outer n
  | 0, _, _, _, hb, _, _ => (Nat.not_lt_zero _ hb).elim
  | bound + 1, outer, n, 0, _, _, hl => by omega
  | bound + 1, outer, n, 1, _, _, hl => by omega
  | bound + 1, outer, n, limit + 2, hb, hn, hl => by
    -- A child leaves fewer nodes, and both `limit` and `limit + 1` are enough for it.
    have hcall : ∀ l, limit ≤ l → ∀ child, plan.heap.Owns n child → child ∉ n :: outer →
        recorder.Answers (run Walker.keeping l) (plan.stops bound) (n :: outer) child := by
      intro l hle child hown hchild
      have hlt := plan.remaining_cons_lt hown.lt_size hn
      exact run_follows bound (n :: outer) child l (by omega) hchild (by omega)
    intro held s hs
    have htype : s.world.heap.effectiveType n = plan.type n := by rw [hs.heap_eq]; rfl
    show recorder.Follows _ _ _ _ _
      (respond _ (run Walker.keeping (limit + 1)) recorder.setting held _ n s)
    simp only [respond, Plan.stops]
    rw [htype, show recorder.setting.handlers = plan.handlers from rfl]
    cases hget : plan.handlers.get? (plan.type n) with
    | none =>
      rw [if_neg (by simp [Plan.handled, hget]), if_neg (by simp [Plan.pruned, hget])]
      exact expand_follows recorder held hs (hcall _ (Nat.le_succ _))
    | some handler =>
      have hpruned : plan.pruned n = plan.prunes handler n := by simp [Plan.pruned, hget]
      rw [if_pos (by simp [Plan.handled, hget]), hpruned]
      have hinside : ∀ t, Standing plan.heap outer t →
          recorder.Follows outer n outer.length (plan.stopsInside (plan.stops bound) outer n) t
            (run Walker.keeping (limit + 1) recorder.setting (.node n :: held) .children n t) := by
        intro t ht
        show recorder.Follows _ _ _ _ _ (expand _ _ _ _ n (t.world.heap.effectiveType n) t)
        rw [ht.heap_eq]
        exact expand_follows recorder _ ht (hcall limit (Nat.le_refl _))
      -- The host hears of the call first, and does not take it for a note.
      have hnotify := recorder.log_notify (.dispatching (plan.type n)) s.world.heap s.world.host
      obtain ⟨t, ht, hstanding, hlog⟩ := behave_follows recorder held
        (hs.notify recorder.setting (.dispatching (plan.type n))) fun _ => hinside
      exact ⟨t, ht, hstanding, hlog.trans (congrArg (· ++ _) hnotify)⟩

end Recorder

/-! ## Whole walks -/

/-- All the stops of a plan from a root. No route that repeats no node is longer than there are
nodes. -/
def Plan.itinerary {α : Type} (plan : Plan α) (root : NodeId) : List Stop :=
  plan.stops (plan.heap.size + 1) [] root

/-- A walk follows the stops of its plan, if calls may nest deep enough. -/
theorem walk_follows {σ α : Type} {plan : Plan α} (recorder : Recorder σ plan) (root : NodeId)
    (host : σ) {limit : Nat} (hl : 2 * (plan.heap.size + 1) ≤ limit) :
    ∃ host', walk limit recorder.setting .visit (some root) ⟨plan.heap, host⟩ =
        some (Stop.outcome (plan.itinerary root), ⟨plan.heap, host'⟩) ∧
      recorder.log host' = recorder.log host ++
        (Stop.calls (plan.itinerary root)).map fun path => (Path.last root path, path.length) := by
  have hb : plan.remaining [] < plan.heap.size + 1 := by
    rw [plan.remaining_nil]; exact Nat.lt_succ_self _
  obtain ⟨t, ht, hstanding, hlog⟩ := recorder.run_follows _ [] root limit hb List.not_mem_nil hl
    [.node root] ⟨⟨plan.heap, host⟩, {}⟩ ⟨host, Walker.lists_new⟩
  refine ⟨t.world.host, ?_, ?_⟩
  · have hworld : t.world = ⟨plan.heap, t.world.host⟩ :=
      congrArg (World.mk · t.world.host) hstanding.heap_eq
    exact (Trace.walk_eq_of_run ht).trans (congrArg (some <| Prod.mk _ ·) hworld)
  · refine hlog.trans ?_
    simp only [noted, List.length_nil, Nat.zero_add]
    rfl

/-- Handlers that note their calls and do nothing else. -/
def Plan.scribe {α : Type} (plan : Plan α) : Recorder (List (NodeId × Nat)) plan where
  host :=
    { behave := fun handler id => .depth fun depth =>
        .change (fun world => { world with host := world.host ++ [(id, depth)] })
          (if plan.prunes handler id then .done (.ok ()) else .go .children (some id) .done)
      notify := fun _ _ state => state }
  log := id
  log_notify _ _ _ := rfl
  records handler id depth := by
    refine .depth (.here ⟨_, _, rfl, fun world h => ⟨h, rfl⟩, .here ?_⟩)
    cases plan.prunes handler id with
    | true => rfl
    | false => exact ⟨_, rfl, fun _ => .here rfl⟩

end SyntaxWalk
