/-
Walks whose handlers change no node and have the walker go on at the children of their own node
only. Such a walk is a function of the types of nodes, of what handlers see of them, and of the
children that are listed: `survey` computes it without a walker, from the list of the nodes that are
being expanded. What can be seen of the walk, and how it ends, is what the survey reports.
-/
import SyntaxWalk.Proofs.Restore

namespace SyntaxWalk

/-! ## The children of a node -/

/-- The children of a node in the order of its child fields, each with the field that holds it. -/
def Options.branches (options : Options) (heap : Heap) (id : NodeId) :
    Except VisitError (List (String × NodeId)) :=
  (options.resolveKeys heap id (heap.effectiveType id)).map
    (heap.childrenIn id (heap.effectiveType id))

/-! ## Duties -/

/-- What a handler does that changes no node and goes on at the children of its node only. It sees
`ν` of its node, and `σ` is the state of the host. -/
inductive Duty (ν σ : Type) where
  /-- Returns. -/
  | done (outcome : Outcome)
  /-- Looks at its node, at the depth and at the state of the host. -/
  | look (next : ν → Nat → σ → Duty ν σ)
  /-- Changes the state of the host. -/
  | note (f : σ → σ) (next : Duty ν σ)
  /-- Has the walker expand its node. -/
  | expand (next : Outcome → Duty ν σ)

/-- The script of a duty, when the handler is called for a node. -/
def Duty.script {ν σ α : Type} (view : Heap → NodeId → ν) (id : NodeId) : Duty ν σ → Script σ α
  | .done outcome => .done outcome
  | .look next => .inspect fun world _ => .depth fun depth =>
    (next (view world.heap id) depth world.host).script view id
  | .note f next => .change (fun world => { world with host := f world.host }) (next.script view id)
  | .expand next => .go .children (some id) fun outcome => (next outcome).script view id

/-- Handlers that have duties, with the options under which they walk. -/
structure Crew (ν σ α : Type) where
  options : Options
  handlers : Handlers α
  /-- What handlers see of a node. -/
  view : Heap → NodeId → ν
  duty : α → Duty ν σ
  /-- What becomes of notices. -/
  tell : Notice → σ → σ

/-- What stays the same during the walks of a crew. -/
def Crew.setting {ν σ α : Type} (crew : Crew ν σ α) : Walk.Setting σ α where
  host := ⟨fun handler id => (crew.duty handler).script crew.view id,
    fun notice _ host => crew.tell notice host⟩
  options := crew.options
  handlers := crew.handlers

theorem Crew.options_setting {ν σ α : Type} (crew : Crew ν σ α) :
    crew.setting.options = crew.options := rfl

theorem Crew.handlers_setting {ν σ α : Type} (crew : Crew ν σ α) :
    crew.setting.handlers = crew.handlers := rfl

/-! ## Reports -/

/-- What can be seen of a walk: the handler of a node is called at a depth, or a node
is expanded. -/
inductive Sight (α : Type) where
  | call (handler : α) (node : NodeId) (depth : Nat)
  | expansion (node : NodeId)

/-- The node that is seen. -/
def Sight.node {α : Type} : Sight α → NodeId
  | .call _ node _ => node
  | .expansion node => node

/-- The call that is seen. -/
def Sight.call? {α : Type} : Sight α → Option (α × NodeId × Nat)
  | .call handler node depth => some (handler, node, depth)
  | .expansion _ => none

/-- What was seen, and how the call ended if it did not nest too deep. -/
structure Report (σ α : Type) where
  sights : List (Sight α)
  result : Option (Outcome × σ)

namespace Report

variable {σ α : Type}

/-- Nothing was seen. -/
def pure (outcome : Outcome) (host : σ) : Report σ α := ⟨[], some (outcome, host)⟩

/-- Something more was seen at first. -/
def mark (sight : Sight α) (x : Report σ α) : Report σ α := ⟨sight :: x.sights, x.result⟩

/-- A report that goes on after another one. -/
def bind (x : Report σ α) (f : Outcome → σ → Report σ α) : Report σ α :=
  match x.result with
  | none => x
  | some (outcome, host) => ⟨x.sights ++ (f outcome host).sights, (f outcome host).result⟩

/-- A report that goes on after another one, unless that failed. -/
def thenOk (x : Report σ α) (f : σ → Report σ α) : Report σ α :=
  x.bind fun
    | .ok (), host => f host
    | .error e, host => .pure (.error e) host

end Report

/-! ## Surveys -/

namespace Crew

variable {ν σ α : Type} (crew : Crew ν σ α) (heap : Heap)

/-- The state of the host after the child fields of a node were resolved. -/
def announced (id : NodeId) (host : σ) : σ :=
  match crew.options.notice? id (heap.effectiveType id) with
  | some notice => crew.tell notice host
  | none => host

/-- The report on the children of a node of the given type, when the given nodes are being
expanded. -/
def surveyChildren (visit : NodeId → σ → Report σ α) (type : String) (nodes : List NodeId) :
    List (String × NodeId) → σ → Report σ α
  | [], host => .pure (.ok ()) host
  | (key, child) :: rest, host =>
    (if child ∈ nodes then .pure (.error (.cyclicChild type key)) host else visit child host).thenOk
      (surveyChildren visit type nodes rest)

/-- The report on the expansion of a node, when the outer nodes are being expanded. -/
def surveyInside (visit : List NodeId → NodeId → σ → Report σ α) (outer : List NodeId) (n : NodeId)
    (host : σ) : Report σ α :=
  .mark (.expansion n) <|
    match crew.options.branches heap n with
    | .error e => .pure (.error e) (crew.announced heap n host)
    | .ok branches => surveyChildren (visit (n :: outer)) (heap.effectiveType n) (n :: outer) branches
        (crew.announced heap n host)

/-- The report on a handler that has a duty; `inside` is the report on the expansion of its node. -/
def perform (inside : σ → Report σ α) (seen : ν) (depth : Nat) : Duty ν σ → σ → Report σ α
  | .done outcome, host => .pure outcome host
  | .look next, host => perform inside seen depth (next seen depth host) host
  | .note f next, host => perform inside seen depth next (f host)
  | .expand next, host => (inside host).bind fun outcome host =>
      perform inside seen depth (next outcome) host

/-- The report on a call at a node, when the outer nodes are being expanded. -/
def survey : Nat → Mode → List NodeId → NodeId → σ → Report σ α
  | 0, _, _, _, _ => ⟨[], none⟩
  | limit + 1, .children, outer, n, host => crew.surveyInside heap (survey limit .visit) outer n host
  | limit + 1, .visit, outer, n, host =>
    match crew.handlers.get? (heap.effectiveType n) with
    | none => crew.surveyInside heap (survey limit .visit) outer n host
    | some handler =>
      .mark (.call handler n outer.length) <|
        perform (survey limit .children outer n) (crew.view heap n) outer.length (crew.duty handler)
          (crew.tell (.dispatching (heap.effectiveType n)) host)

end Crew

/-! ## Runs and their reports -/

namespace Report

variable {σ α : Type}

theorem thenOk_assoc (x : Report σ α) (f g : σ → Report σ α) :
    (x.thenOk f).thenOk g = x.thenOk fun host => (f host).thenOk g := by
  obtain ⟨sights, _ | ⟨_ | _, host⟩⟩ := x
  · rfl
  · simp [thenOk, bind, pure]
  · simp only [thenOk, bind]
    generalize f host = next
    obtain ⟨more, _ | ⟨_ | _, host'⟩⟩ := next <;> simp [pure]

end Report

/-- The report on two lists of children is that on the second after that on the first. -/
theorem Crew.surveyChildren_append {σ α : Type} (visit : NodeId → σ → Report σ α) (type : String)
    (nodes : List NodeId) : ∀ (a b : List (String × NodeId)) (host : σ),
    surveyChildren visit type nodes (a ++ b) host =
      (surveyChildren visit type nodes a host).thenOk (surveyChildren visit type nodes b)
  | [], _, _ => rfl
  | (key, child) :: a, b, host => by
    rw [List.cons_append, surveyChildren, surveyChildren, Report.thenOk_assoc]
    congr 1
    funext host
    exact surveyChildren_append visit type nodes a b host

theorem Crew.surveyChildren_singleton {σ α : Type} (visit : NodeId → σ → Report σ α) (type : String)
    (nodes : List NodeId) (key : String) (child : NodeId) (host : σ) :
    surveyChildren visit type nodes [(key, child)] host =
      if child ∈ nodes then .pure (.error (.cyclicChild type key)) host else visit child host := by
  have hpure : ∀ x : Report σ α, x.thenOk (.pure (.ok ())) = x := by
    rintro ⟨sights, _ | ⟨_ | _, host⟩⟩ <;> simp [Report.thenOk, Report.bind, Report.pure]
  exact hpure _

namespace Trace

/-- What can be seen at a moment. -/
def Moment.sight? {σ α : Type} (m : Moment σ α Walker) : Option (Sight α) :=
  match m.deed with
  | .call handler node => some (.call handler node m.state.book.depth)
  | .resolve node _ => some (.expansion node)
  | _ => none

/-- Calls of handlers are among what can be seen. -/
theorem calls_eq_sights {σ α : Type} (ms : List (Moment σ α Walker)) :
    calls Walker.keeping ms = (ms.filterMap Moment.sight?).filterMap Sight.call? := by
  unfold calls
  rw [List.filterMap_filterMap]
  congr 1
  funext m
  obtain ⟨deed, held, state⟩ := m
  cases deed <;> rfl

/-- A walk comes to a node: a handler is called for it, or it is expanded. -/
def Reaches {σ α : Type} (setting : Walk.Setting σ α) (mode : Mode) (root : NodeId)
    (world : World σ) (n : NodeId) : Prop :=
  ∃ limit, ∃ m ∈ (walk Walker.keeping limit setting mode (some root) world).moments,
    (∃ handler, m.deed = .call handler n) ∨ ∃ type, m.deed = .resolve n type

/-- A run on the given heap is what the report says, and in the end the given nodes are being
expanded. -/
inductive Shows {σ α : Type} (heap : Heap) (nodes : List NodeId) :
    CallRun σ α Walker → Report σ α → Prop where
  | tooDeep {ms} : Shows heap nodes ⟨ms, none⟩ ⟨ms.filterMap Moment.sight?, none⟩
  | ended {ms outcome host w} (hw : w.Lists nodes) :
    Shows heap nodes ⟨ms, some (outcome, ⟨⟨heap, host⟩, w⟩)⟩
      ⟨ms.filterMap Moment.sight?, some (outcome, host)⟩

section

variable {σ α : Type} {heap : Heap} {nodes nodes' : List NodeId} {x : CallRun σ α Walker}
  {y : Report σ α}

theorem Shows.pure {outcome : Outcome} {host : σ} {w : Walker} (hw : w.Lists nodes) :
    Shows heap nodes (.pure (outcome, ⟨⟨heap, host⟩, w⟩) : CallRun σ α Walker)
      (.pure outcome host) :=
  .ended hw

theorem Shows.mark {m : Moment σ α Walker} {sight : Sight α} (hm : m.sight? = some sight)
    (h : Shows heap nodes x y) : Shows heap nodes (x.mark m) (y.mark sight) := by
  cases h with
  | tooDeep =>
    rw [Report.mark, ← List.filterMap_cons_some hm]
    exact .tooDeep
  | ended hw =>
    rw [Report.mark, ← List.filterMap_cons_some hm]
    exact .ended hw

theorem Shows.skip {m : Moment σ α Walker} (hm : m.sight? = none) (h : Shows heap nodes x y) :
    Shows heap nodes (x.mark m) y := by
  cases h with
  | tooDeep =>
    rw [← List.filterMap_cons_none hm]
    exact .tooDeep
  | ended hw =>
    rw [← List.filterMap_cons_none hm]
    exact .ended hw

/-- A report goes on with what comes next as the run does. -/
theorem Shows.bind {f : Outcome × State σ Walker → CallRun σ α Walker}
    {g : Outcome → σ → Report σ α} (h : Shows heap nodes x y)
    (hf : ∀ outcome host w, w.Lists nodes →
      Shows heap nodes' (f (outcome, ⟨⟨heap, host⟩, w⟩)) (g outcome host)) :
    Shows heap nodes' (x.bind f) (y.bind g) := by
  cases h with
  | tooDeep =>
    simp only [Run.bind, Option.bind_none, List.append_nil]
    exact .tooDeep
  | @ended ms outcome host w hw =>
    have hk := hf outcome host w hw
    simp only [Run.bind, Option.bind_some, Report.bind]
    generalize f (outcome, ⟨⟨heap, host⟩, w⟩) = p at hk
    generalize g outcome host = q at hk
    cases hk with
    | tooDeep =>
      rw [← List.filterMap_append]
      exact .tooDeep
    | ended hw' =>
      rw [← List.filterMap_append]
      exact .ended hw'

/-- In the end of an expansion its node is left. -/
theorem Shows.leave {held : List Hold} {id : NodeId} {w : Walker} (h : Shows heap (id :: nodes) x y)
    (hw : w.Lists nodes) :
    Shows heap nodes (x.bind fun (outcome, t) => .mark ⟨.leave id, held, t⟩
      (.pure (outcome, ⟨t.world, t.book.leave id (!w.isOpen id)⟩))) y := by
  cases h with
  | tooDeep =>
    simp only [Run.bind, Option.bind_none, List.append_nil]
    exact .tooDeep
  | @ended ms outcome host v hv =>
    have hms : ∀ m : Moment σ α Walker, m.sight? = none →
        (ms ++ [m]).filterMap Moment.sight? = ms.filterMap Moment.sight? := fun m hm => by
      rw [List.filterMap_append, List.filterMap_cons_none hm, List.filterMap_nil, List.append_nil]
    simp only [Run.bind, Run.mark, Run.pure, Option.bind_some]
    rw [← hms ⟨.leave id, held, ⟨⟨heap, host⟩, v⟩⟩ rfl]
    exact .ended (hv.leave hw)

theorem Shows.thenOk {f : State σ Walker → CallRun σ α Walker} {g : σ → Report σ α}
    (h : Shows heap nodes x y)
    (hf : ∀ host w, w.Lists nodes → Shows heap nodes (f ⟨⟨heap, host⟩, w⟩) (g host)) :
    Shows heap nodes (x.thenOk f) (y.thenOk g) := by
  refine h.bind fun outcome host w hw => ?_
  cases outcome with
  | error e => exact .pure hw
  | ok _ => exact hf host w hw

theorem Shows.inWorld (h : Shows heap nodes x y) :
    x.inWorld.moments.filterMap Moment.sight? = y.sights ∧
      x.inWorld.result = y.result.map fun (outcome, host) => (outcome, ⟨heap, host⟩) := by
  cases h with
  | tooDeep => simp [CallRun.inWorld, Run.bind]
  | ended _ => simp [CallRun.inWorld, Run.bind, Run.pure]

end

/-! ## The walker does what the survey reports -/

section

variable {ν σ α : Type} (crew : Crew ν σ α) {heap : Heap} {call : Call σ α Walker}
  {visit : List NodeId → NodeId → σ → Report σ α} {nodes : List NodeId} {w : Walker} {host : σ}
  (held : List Hold)

/-- Visits are answered as the reports say. -/
def VisitsShow (heap : Heap) (call : Call σ α Walker)
    (visit : List NodeId → NodeId → σ → Report σ α) : Prop :=
  ∀ (held : List Hold) (nodes : List NodeId) (n : NodeId) (host : σ) (w : Walker), w.Lists nodes →
    Shows heap nodes (call crew.setting held .visit n ⟨⟨heap, host⟩, w⟩) (visit nodes n host)

theorem walkChild_shows (hv : VisitsShow crew heap call visit) (type key : String) (child : NodeId)
    (hw : w.Lists nodes) :
    Shows heap nodes
      (walkChild Walker.keeping call crew.setting held type key child ⟨⟨heap, host⟩, w⟩)
      (if child ∈ nodes then .pure (.error (.cyclicChild type key)) host
        else visit nodes child host) := by
  unfold walkChild
  refine .skip rfl ?_
  show Shows heap nodes (if w.isOpen child = true then _ else _) _
  by_cases hc : child ∈ nodes
  · rw [if_pos hc, if_pos ((hw.isOpen_iff child).2 hc)]
    exact .pure hw
  · rw [if_neg hc, if_neg fun h => hc ((hw.isOpen_iff child).1 h)]
    exact hv _ _ _ _ _ hw

variable (heap visit nodes) in
/-- The survey of children is put together as the runs that visit them are. -/
theorem chains_shows (type : String) :
    Chains (Standing heap nodes) fun cs s (x : CallRun σ α Walker) => Shows heap nodes x
      (Crew.surveyChildren (visit nodes) type nodes (cs.map fun c : Candidate => (c.key, c.child))
        s.world.host) where
  done hs := by
    obtain ⟨host, hw⟩ := hs
    exact .pure hw
  thenOk hx hf := by
    rw [List.map_append, Crew.surveyChildren_append]
    exact hx.thenOk fun host w hw => hf _ ⟨host, hw⟩

/-- What can be seen of a run over fields is the report on the children in them. -/
theorem walkFields_shows (hv : VisitsShow crew heap call visit) (id : NodeId) (type : String)
    (keys : List String) (hw : w.Lists nodes) :
    Shows heap nodes (walkFields Walker.keeping call crew.setting held id type keys ⟨⟨heap, host⟩, w⟩)
      (Crew.surveyChildren (visit nodes) type nodes (heap.childrenIn id type keys) host) := by
  have hchildren : (keys.flatMap (heap.candidates id type)).map (fun c => (c.key, c.child)) =
      heap.childrenIn id type keys := by
    rw [List.map_flatMap]
    exact List.flatMap_congr fun key _ => List.map_map
  let side : Side σ α Walker := ⟨Walker.keeping, call, crew.setting, held⟩
  have hchains := chains_shows heap visit nodes type
  have hfield : ∀ key s, Standing heap nodes s → Shows heap nodes
      (walkField Walker.keeping call crew.setting held id type key s)
      (Crew.surveyChildren (visit nodes) type nodes
        ((heap.candidates id type key).map fun c => (c.key, c.child)) s.world.host) := by
    rintro key _ ⟨host, hw⟩
    rw [walkField_eq, ← Heap.slotCandidates_placesIn]
    refine .skip rfl (hchains.walkSlots side key _ _ ?_ ⟨host, hw⟩)
    rintro c - rest _ ⟨host, hw⟩
    rw [List.map_singleton, Crew.surveyChildren_singleton]
    exact walkChild_shows crew _ hv type c.key c.child hw
  rw [← hchildren]
  exact hchains.walkFields side _ hfield keys ⟨host, hw⟩

theorem announce_crew (id : NodeId) :
    announce crew.setting id (heap.effectiveType id) ⟨⟨heap, host⟩, w⟩ =
      ⟨⟨heap, crew.announced heap id host⟩, w⟩ := by
  unfold announce Crew.announced
  rw [crew.options_setting]
  cases crew.options.notice? id (heap.effectiveType id) <;> rfl

/-- An expansion is seen, and then what can be seen of its children. -/
theorem expand_shows (hv : VisitsShow crew heap call visit) (id : NodeId) (hw : w.Lists nodes) :
    Shows heap nodes
      (expand Walker.keeping call crew.setting held id (heap.effectiveType id) ⟨⟨heap, host⟩, w⟩)
      (crew.surveyInside heap visit nodes id host) := by
  unfold expand Crew.surveyInside Options.branches
  refine .mark rfl ?_
  rw [announce_crew, crew.options_setting]
  dsimp only
  cases crew.options.resolveKeys heap id (heap.effectiveType id) with
  | error e => exact .pure hw
  | ok keys =>
    exact (walkFields_shows crew (.node id :: held) hv id (heap.effectiveType id) keys
      (hw.enter id)).leave hw

/-- A handler of a crew shows nothing but the expansions that it asks for. -/
theorem runScript_shows {inside : σ → Report σ α} {n : NodeId}
    (hinside : ∀ (host : σ) (w : Walker), w.Lists nodes → Shows heap nodes
      (call crew.setting (.node n :: held) .children n ⟨⟨heap, host⟩, w⟩) (inside host))
    (duty : Duty ν σ) (host : σ) (w : Walker) (hw : w.Lists nodes) :
    Shows heap nodes
      (runScript Walker.keeping call crew.setting held (duty.script crew.view n) ⟨⟨heap, host⟩, w⟩)
      (Crew.perform inside (crew.view heap n) nodes.length duty host) := by
  induction duty generalizing host w with
  | done outcome => exact .skip rfl (.pure hw)
  | look next ih =>
    have hd : w.depth = nodes.length := congrArg List.length hw.ancestors
    refine .skip rfl (.skip rfl ?_)
    show Shows heap nodes (runScript _ _ _ _ ((next _ w.depth host).script _ _) _) _
    rw [hd]
    exact ih _ _ _ _ _ hw
  | note f next ih => exact .skip rfl (ih _ _ hw)
  | expand next ih =>
    exact .skip rfl ((hinside host w hw).bind fun outcome host w hw => ih outcome host w hw)

end

variable {ν σ α : Type}

/-- A traced run of the walker is what the survey reports. -/
theorem run_shows (crew : Crew ν σ α) (heap : Heap) : ∀ (limit : Nat) (held : List Hold) (mode : Mode)
    (nodes : List NodeId) (n : NodeId) (host : σ) (w : Walker), w.Lists nodes →
    Shows heap nodes (run Walker.keeping limit crew.setting held mode n ⟨⟨heap, host⟩, w⟩)
      (crew.survey heap limit mode nodes n host)
  | 0, _, _, _, _, _, _, _ => .tooDeep
  | limit + 1, held, mode, nodes, n, host, w, hw => by
    have hv : VisitsShow crew heap (run Walker.keeping limit) (crew.survey heap limit .visit) :=
      fun held => run_shows crew heap limit held .visit
    show Shows heap nodes (respond _ _ _ _ _ _ _) _
    cases mode with
    | children => exact expand_shows crew held hv n hw
    | visit =>
      unfold respond Crew.survey
      simp only [crew.handlers_setting]
      cases crew.handlers.get? (heap.effectiveType n) with
      | none => exact expand_shows crew held hv n hw
      | some handler =>
        have hsight : (⟨.call handler n, held, ⟨⟨heap, host⟩, w⟩⟩ : Moment σ α Walker).sight? =
            some (.call handler n nodes.length) :=
          congrArg (fun d => some (Sight.call handler n d)) (congrArg List.length hw.ancestors)
        refine .mark hsight ?_
        exact runScript_shows crew held
          (fun host w hw => run_shows crew heap limit _ .children nodes n host w hw)
          (crew.duty handler) _ w hw

/-- What can be seen of a walk is what the survey reports, and it ends as the survey does. -/
theorem walk_shows (crew : Crew ν σ α) (heap : Heap) (limit : Nat) (mode : Mode) (root : NodeId)
    (host : σ) :
    (walk Walker.keeping limit crew.setting mode (some root) ⟨heap, host⟩).moments.filterMap
        Moment.sight? = (crew.survey heap limit mode [] root host).sights ∧
      SyntaxWalk.walk limit crew.setting mode (some root) ⟨heap, host⟩ =
        (crew.survey heap limit mode [] root host).result.map
          fun (outcome, host) => (outcome, ⟨heap, host⟩) := by
  rw [← walk_result]
  exact (run_shows crew heap limit [.node root] mode [] root host _ Walker.lists_new).inWorld

/-- The nodes that are seen are those to which the walk comes. -/
theorem reaches_of_mem_sights {crew : Crew ν σ α} {heap : Heap} {limit : Nat} {mode : Mode}
    {root : NodeId} {host : σ} {sight : Sight α}
    (h : sight ∈ (crew.survey heap limit mode [] root host).sights) :
    Reaches crew.setting mode root ⟨heap, host⟩ sight.node := by
  rw [← (walk_shows crew heap limit mode root host).1] at h
  obtain ⟨m, hm, hsight⟩ := List.mem_filterMap.1 h
  refine ⟨limit, m, hm, ?_⟩
  obtain ⟨deed, held, state⟩ := m
  cases deed with
  | call handler node => cases hsight; exact .inl ⟨handler, rfl⟩
  | resolve node type => cases hsight; exact .inr ⟨type, rfl⟩
  | _ => cases hsight

end Trace

end SyntaxWalk
