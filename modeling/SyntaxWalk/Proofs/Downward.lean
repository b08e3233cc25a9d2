/-
Walks that go downward meet no cycle in a tree. Handlers that change no nodes may have the walker go
on at their own node again, or anywhere below it, and catch what comes of it: the nodes that are
being expanded are then all on the way down to the node that is visited, so none of them is a child
of it, unless a cycle of owning edges can be reached. The trees that are read from JSON have none.
-/
import SyntaxWalk.Proofs.Origins
import SyntaxWalk.Proofs.Planting

namespace SyntaxWalk

open Relation

variable {σ α : Type}

/-! ## Handlers that go downward -/

/-- A script that changes no nodes, and has the walker go on only at the given node and at nodes
below it. It may start walks of its own there, with trusted handlers. -/
def Script.Downward (heap : Heap) (trusted : α → Prop) (id : NodeId) : Script σ α → Prop
  | .done _ => True
  | .inspect next => ∀ host alive, (next ⟨heap, host⟩ alive).Downward heap trusted id
  | .change f next =>
    (∀ host, (f ⟨heap, host⟩).heap = heap) ∧ next.Downward heap trusted id
  | .depth next => ∀ depth, (next depth).Downward heap trusted id
  | .options next => ∀ options, (next options).Downward heap trusted id
  | .go _ node next => (∀ n, node = some n → ReflTransGen heap.Owns id n) ∧
    ∀ outcome, (next outcome).Downward heap trusted id
  | .walk _ handlers n next => (∀ type handler, handlers.get? type = some handler → trusted handler) ∧
    ReflTransGen heap.Owns id n ∧ ∀ outcome, (next outcome).Downward heap trusted id

/-- The handlers of a walk are trusted, and trusted handlers go downward. -/
structure Walk.Setting.Downward (setting : Walk.Setting σ α) (heap : Heap) (trusted : α → Prop) :
    Prop where
  handlers : ∀ type handler, setting.handlers.get? type = some handler → trusted handler
  behave : ∀ handler, trusted handler → ∀ id,
    (setting.host.behave handler id).Downward heap trusted id

namespace Trace

/-! ## Runs that go downward -/

section

variable (heap : Heap) (root : NodeId)

/-- A node can be reached from the root, and from all the given nodes. -/
structure Under (nodes : List NodeId) (id : NodeId) : Prop where
  root : ReflTransGen heap.Owns root id
  nodes : ∀ a ∈ nodes, ReflTransGen heap.Owns a id

/-- What is done in a walk that goes downward, while the given nodes are being expanded: no child is
refused, and when the turn of a field comes, its node is under all of them. -/
def Deed.Downward (nodes : List NodeId) : Deed α → Prop
  | .check _ _ _ refused => refused = false
  | .read n _ _ => Under heap root nodes n
  | _ => True

/-- A moment of a walk that goes downward; the nodes are as they were. -/
structure Moment.Downward (m : Moment σ α Walker) : Prop where
  heap_eq : m.state.world.heap = heap
  deed : m.deed.Downward heap root m.state.book.ancestors

/-- All moments of a run go downward. If it ends, the nodes are as they were, and the given ones are
being expanded. -/
structure Descends (nodes : List NodeId) (x : CallRun σ α Walker) : Prop where
  ends : ∀ outcome t, x.result = some (outcome, t) → Standing heap nodes t
  moments : ∀ m ∈ x.moments, m.Downward heap root

end

variable {heap : Heap} {root : NodeId} {nodes : List NodeId}

theorem Under.cons {id : NodeId} (h : Under heap root nodes id) :
    Under heap root (id :: nodes) id := by
  refine ⟨h.root, fun a ha => ?_⟩
  rcases List.mem_cons.1 ha with rfl | ha
  · exact .refl
  · exact h.nodes a ha

theorem Under.below {id n : NodeId} (h : Under heap root nodes id)
    (hn : ReflTransGen heap.Owns id n) : Under heap root nodes n :=
  ⟨h.root.trans hn, fun a ha => (h.nodes a ha).trans hn⟩

/-- Without a cycle, a child of a node is none of those above it. -/
theorem Under.not_mem_of_owns {id child : NodeId} (h : Under heap root nodes id)
    (hacyclic : heap.Acyclic (.node root)) (hchild : heap.Owns id child) : child ∉ nodes := by
  intro hmem
  have hcycle : TransGen heap.Owns child child := .tail' (h.nodes child hmem) hchild
  exact hacyclic root List.mem_cons_self child (h.root.tail hchild) hcycle

section

variable {x : CallRun σ α Walker} {s : State σ Walker}

theorem Descends.pure (hs : Standing heap nodes s) (outcome : Outcome) :
    Descends heap root nodes (.pure (outcome, s) : CallRun σ α Walker) := by
  refine ⟨fun outcome t ht => ?_, fun m hm => by cases hm⟩
  cases ht
  exact hs

theorem Descends.mark {deed : Deed α} {held : List Hold} (hs : s.world.heap = heap)
    (hd : deed.Downward heap root s.book.ancestors) (h : Descends heap root nodes x) :
    Descends heap root nodes (x.mark ⟨deed, held, s⟩) := by
  refine ⟨h.ends, fun m hm => ?_⟩
  rcases List.mem_cons.1 hm with rfl | hm
  · exact ⟨hs, hd⟩
  · exact h.moments m hm

/-- What comes next finds the nodes as they were. -/
theorem Descends.bind {later : List NodeId} {f : Outcome × State σ Walker → CallRun σ α Walker}
    (h : Descends heap root nodes x)
    (hf : ∀ outcome t, Standing heap nodes t → Descends heap root later (f (outcome, t))) :
    Descends heap root later (x.bind f) := by
  refine ⟨fun outcome t ht => ?_, fun m hm => ?_⟩
  · obtain ⟨⟨o, u⟩, hu, ht⟩ := Option.bind_eq_some_iff.1 ht
    exact (hf o u (h.ends o u hu)).ends outcome t ht
  · rcases mem_moments_bind hm with hm | ⟨⟨o, u⟩, hu, hm⟩
    · exact h.moments m hm
    · exact (hf o u (h.ends o u hu)).moments m hm

theorem Descends.thenOk {next : State σ Walker → CallRun σ α Walker}
    (h : Descends heap root nodes x)
    (hnext : ∀ t, Standing heap nodes t → Descends heap root nodes (next t)) :
    Descends heap root nodes (x.thenOk next) := by
  refine h.bind fun outcome t ht => ?_
  cases outcome with
  | error e => exact .pure ht _
  | ok _ => exact hnext t ht

end

/-! ## Step by step -/

section

variable (call : Call σ α Walker) (host : Host σ α) (options : Options) (trusted : α → Prop)

variable (heap root) in
/-- Calls at nodes under those that are being expanded go downward. -/
def CallsDescend : Prop :=
  ∀ (handlers : Handlers α), (∀ type handler, handlers.get? type = some handler → trusted handler) →
    ∀ (held : List Hold) (mode : Mode) (nodes : List NodeId) (id : NodeId) (s : State σ Walker),
      Under heap root nodes id → Standing heap nodes s →
      Descends heap root nodes (call ⟨host, options, handlers⟩ held mode id s)

variable {call host options trusted} (hc : CallsDescend heap root call host options trusted)
  {handlers : Handlers α}
  (hh : ∀ type handler, handlers.get? type = some handler → trusted handler)
  {held : List Hold} {s : State σ Walker} {id : NodeId}

include hc hh

/-- No child of a node is refused that is under all nodes which are being expanded. -/
theorem steady_descends (hacyclic : heap.Acyclic (.node root)) (held : List Hold)
    (hid : Under heap root nodes id) (type : String) :
    Steady ⟨Walker.keeping, call, ⟨host, options, handlers⟩, held⟩ id type (Standing heap nodes)
      fun _ x => Descends heap root nodes x where
  done hs := .pure hs _
  thenOk hx hf := hx.thenOk hf
  read hs hx := .mark hs.heap_eq (hs.ancestors.symm ▸ hid) hx
  refused hread hcand hs ho := by
    rw [hread.heap_eq] at hcand
    have hchild := Heap.owns_of_mem_visitables (Heap.of_mem_candidates hcand).2.1
    exact (hid.not_mem_of_owns hacyclic hchild ((hs.isOpen_iff _).1 ho)).elim
  visited hread hcand hs _ := by
    rw [hread.heap_eq] at hcand
    have hchild := Heap.owns_of_mem_visitables (Heap.of_mem_candidates hcand).2.1
    exact .mark hs.heap_eq rfl (hc handlers hh _ _ _ _ _ (hid.below (.single hchild)) hs)

/-- A node that is expanded is under itself, so the nodes under expansion stay above the node that
is visited. -/
theorem expand_descends (hacyclic : heap.Acyclic (.node root)) (hid : Under heap root nodes id)
    (type : String) (hs : Standing heap nodes s) :
    Descends heap root nodes
      (expand Walker.keeping call ⟨host, options, handlers⟩ held id type s) := by
  have hs' := hs.announce ⟨host, options, handlers⟩ id type
  unfold expand
  refine Descends.mark hs.heap_eq trivial ?_
  cases options.resolveKeys s.world.heap id type with
  | error e => exact .pure hs' _
  | ok keys =>
    exact ((steady_descends hc hh hacyclic _ hid.cons type).walkFields keys (hs'.enter id)).bind
      fun outcome t ht => .mark ht.heap_eq trivial (.pure (ht.leave hs') outcome)

/-- A script that goes downward calls the walker at nodes under all that are being expanded. A walk
of its own begins with none, and below the root too. -/
theorem runScript_descends (hid : Under heap root nodes id) {script : Script σ α}
    (hscript : script.Downward heap trusted id) (s : State σ Walker) (hs : Standing heap nodes s) :
    Descends heap root nodes
      (runScript Walker.keeping call ⟨host, options, handlers⟩ held script s) := by
  induction script generalizing s with
  | done outcome => exact .mark hs.heap_eq trivial (.pure hs _)
  | inspect next ih =>
    obtain ⟨state, hw⟩ := hs
    exact .mark rfl trivial (ih _ _ (hscript state _) _ ⟨state, hw⟩)
  | change f next ih =>
    obtain ⟨state, hw⟩ := hs
    have hs : Standing heap nodes ⟨f ⟨heap, state⟩, _⟩ :=
      (Standing.mk state hw).change (hscript.1 state)
    exact .mark rfl trivial (ih hscript.2 _ hs)
  | depth next ih => exact .mark hs.heap_eq trivial (ih _ (hscript _) s hs)
  | options next ih => exact .mark hs.heap_eq trivial (ih _ (hscript _) s hs)
  | go mode node next ih =>
    obtain ⟨hbelow, hnext⟩ := hscript
    cases node with
    | none => exact .mark hs.heap_eq trivial (ih _ (hnext _) s hs)
    | some n =>
      have hcall := hc handlers hh (.node n :: held) mode nodes n s (hid.below (hbelow n rfl)) hs
      exact .mark hs.heap_eq trivial
        (hcall.bind fun outcome t ht => ih outcome (hnext outcome) t ht)
  | walk mode own n next ih =>
    obtain ⟨hown, hbelow, hnext⟩ := hscript
    -- A walk of its own begins with nothing under expansion.
    have hroot : Under heap root [] n := ⟨(hid.below hbelow).root, fun a ha => by cases ha⟩
    have hcall := hc own hown (.node n :: held) mode [] n _ hroot hs.new
    exact .mark hs.heap_eq trivial (hcall.bind fun outcome t ht =>
      ih outcome (hnext outcome) _ (hs.change ht.heap_eq))

end

section

variable {host : Host σ α} {trusted : α → Prop}

theorem respond_descends {call : Call σ α Walker} {options : Options}
    (hbehave : ∀ handler, trusted handler → ∀ id, (host.behave handler id).Downward heap trusted id)
    (hacyclic : heap.Acyclic (.node root)) (hc : CallsDescend heap root call host options trusted) :
    CallsDescend heap root (respond Walker.keeping call) host options trusted := by
  intro handlers hh held mode nodes id s hid hs
  cases mode with
  | children => exact expand_descends hc hh hacyclic hid _ hs
  | visit =>
    simp only [respond]
    cases hget : handlers.get? (s.world.heap.effectiveType id) with
    | none => exact expand_descends hc hh hacyclic hid _ hs
    | some handler =>
      refine Descends.mark hs.heap_eq trivial ?_
      exact runScript_descends hc hh hid (hbehave handler (hh _ handler hget) id) _
        (hs.notify _ _)

/-- If handlers go downward, so do all runs. -/
theorem run_descends
    (hbehave : ∀ handler, trusted handler → ∀ id, (host.behave handler id).Downward heap trusted id)
    (hacyclic : heap.Acyclic (.node root)) (options : Options) :
    ∀ (limit : Nat), CallsDescend heap root (run Walker.keeping limit) host options trusted
  | 0 => fun _ _ _ _ _ _ _ _ _ => ⟨fun _ _ h => (nomatch h), fun _ h => (nomatch h)⟩
  | limit + 1 => respond_descends hbehave hacyclic (run_descends hbehave hacyclic options limit)

end

/-! ## Trees without cycles -/

section

variable {setting : Walk.Setting σ α} {trusted : α → Prop}

/-- At first nothing is being expanded, so the root may be visited. -/
theorem root_descends (hset : setting.Downward heap trusted) (hacyclic : heap.Acyclic (.node root))
    (limit : Nat) (mode : Mode) (state : σ) :
    Descends heap root []
      (run Walker.keeping limit setting [.node root] mode root ⟨⟨heap, state⟩, {}⟩) :=
  run_descends hset.behave hacyclic setting.options limit setting.handlers hset.handlers _ mode []
    root _ ⟨.refl, fun a ha => by cases ha⟩ ⟨state, Walker.lists_new⟩

/-- No child is refused. -/
theorem walk_refuses_none (hset : setting.Downward heap trusted)
    (hacyclic : heap.Acyclic (.node root)) (limit : Nat) (mode : Mode) (state : σ) :
    ∀ m ∈ (walk Walker.keeping limit setting mode (some root) ⟨heap, state⟩).moments,
      ∀ type key child, m.deed ≠ .check type key child true := by
  intro m hm type key child hdeed
  unfold walk at hm
  rw [moments_inWorld] at hm
  have hcheck := ((root_descends hset hacyclic limit mode state).moments m hm).deed
  rw [hdeed] at hcheck
  cases hcheck

/-- When the turn of a field comes, it holds no node that is being expanded. -/
theorem not_origin_cyclicChild {host : Host σ α} {options : Options} {keeps : σ → VisitError → Prop}
    {moments : List (Moment σ α Walker)} (hacyclic : heap.Acyclic (.node root))
    (h : ∀ m ∈ moments, m.Downward heap root) {type key : String} :
    ¬Origin host options keeps moments (.cyclicChild type key) := by
  intro horigin
  cases horigin with
  | @cycle first turn n child _ _ keys hwithin _ _ _ _ hturn _ _ hchild hopen =>
    have hmem : turn ∈ moments := by
      obtain ⟨before, between, after, rfl, -⟩ := hwithin
      simp
    obtain ⟨hheap, hread⟩ := h turn hmem
    rw [hturn] at hread
    rw [hheap] at hchild
    exact hread.not_mem_of_owns hacyclic (Heap.owns_of_mem_visitables hchild) hopen

/-- If handlers only pass errors on and make errors of handlers, the walk does not end with a
cycle. -/
theorem walk_ne_cyclicChild (hset : setting.Downward heap trusted)
    (hacyclic : heap.Acyclic (.node root)) {keeps : σ → VisitError → Prop}
    (hhost : setting.host.Honest keeps) {state : σ} (hkept : ∀ e, ¬keeps state e) (limit : Nat)
    (mode : Mode) (type key : String) (world : World σ) :
    SyntaxWalk.walk limit setting mode (some root) ⟨heap, state⟩ ≠
      some (.error (.cyclicChild type key), world) := by
  intro h
  have hresult := (walk_result limit setting mode (some root) ⟨heap, state⟩).trans h
  obtain ⟨⟨_, t⟩, ht, heq⟩ := Option.bind_eq_some_iff.1 hresult
  cases heq
  have hcycle : Origin setting.host setting.options keeps _ (.cyclicChild type key) :=
    (run_accounts hhost setting.options _ limit setting.handlers [.node root] mode root []
      ⟨⟨heap, state⟩, {}⟩ Walker.lists_new (fun _ ho => ho) (fun e he => (hkept e he).elim)
      _ t ht).1 _ rfl
  exact not_origin_cyclicChild hacyclic (root_descends hset hacyclic limit mode state).moments hcycle

end

/-- Reading a JSON value plants it: each object becomes a new node, to which one edge leads from the
value or from another new node, older nodes stay as they are, and there are no back-references. If
the value is an object, the edge to the root is none of a node, and no walk of the root meets a
cycle, whatever the options, as long as handlers change no nodes and go on at their own node or
below it: no child is refused, and the error of a cycle is not what the walk ends with, unless a
handler makes one up. -/
theorem planted_tree_never_cyclic (heap : Heap) (json : Json) (hd : json.Distinct) :
    (heap.Planted (heap.ofJson json).2 json.objects (heap.ofJson json).1.owned ∧
      (heap.ofJson json).1.Lasting) ∧
    ∀ root later, heap.nodeOfJson? json = (some root, later) →
      heap.Planted later json.objects [root] ∧
      ∀ (σ α : Type) (setting : Walk.Setting σ α) (trusted : α → Prop),
        setting.Downward later trusted → ∀ (limit : Nat) (mode : Mode) (state : σ),
        (∀ m ∈ (walk Walker.keeping limit setting mode (some root) ⟨later, state⟩).moments,
          ∀ type key child, m.deed ≠ .check type key child true) ∧
        ∀ keeps : σ → VisitError → Prop, setting.host.Honest keeps → (∀ e, ¬keeps state e) →
          ∀ type key world, SyntaxWalk.walk limit setting mode (some root) ⟨later, state⟩ ≠
            some (.error (.cyclicChild type key), world) := by
  refine ⟨⟨Heap.planted_ofJson json heap hd, Heap.lasting_ofJson json heap⟩,
    fun root later hroot => ?_⟩
  obtain ⟨hplanted, htree⟩ := Heap.planted_nodeOfJson? hd hroot
  refine ⟨hplanted, fun σ α setting trusted hset limit mode state => ⟨?_, ?_⟩⟩
  · exact walk_refuses_none hset htree.acyclic limit mode state
  · exact fun keeps hhost hkept type key world =>
      walk_ne_cyclicChild hset htree.acyclic hhost hkept limit mode type key world

/-- An object with another one in a list. -/
def nestedJson : Json :=
  .object [("type", .string "Nest"), ("items", .array [.object [("type", .string "Nest")], .null])]

/-- A handler that has the walker go on at the first node that its node owns, and then expands its
node twice; what comes of that is ignored but the last time. -/
def diver : Walk.Setting Unit Unit where
  host := ⟨fun _ id => .inspect fun world _ =>
      .go .visit (world.heap.fields id).owned.head? fun _ => .go .children (some id) fun _ =>
        .go .children (some id) .done,
    fun _ _ host => host⟩
  options := { overrides := StringMap.empty.insert "Nest" ["items"] }
  handlers := Record.empty.insert "Nest" ()

theorem diver_downward (heap : Heap) : diver.Downward heap fun _ => True := by
  refine ⟨fun _ _ _ => trivial, fun _ _ id _ _ => ⟨fun n hn => ?_, fun _ => ?_⟩⟩
  · exact .single (List.mem_of_mem_head? hn)
  · refine ⟨fun n hn => ?_, fun _ => ⟨fun n hn => ?_, fun _ => trivial⟩⟩
    · cases hn
      exact .refl
    · cases hn
      exact .refl

theorem diver_honest : diver.host.Honest fun _ _ => False :=
  ⟨fun _ _ _ _ _ _ _ _ he => .inl (.inr he), fun _ _ _ _ he => he⟩

theorem planted_tree_never_cyclic_diver :
    nestedJson.Distinct ∧
    Walk.selfLoop.nodeOfJson? nestedJson = (some 2, (Walk.selfLoop.ofJson nestedJson).2) ∧
    Walk.selfLoop.Planted (Walk.selfLoop.ofJson nestedJson).2 2 [2] ∧
    (∀ m ∈ (walk Walker.keeping 9 diver .visit (some 2)
      ⟨(Walk.selfLoop.ofJson nestedJson).2, ()⟩).moments,
      ∀ type key child, m.deed ≠ .check type key child true) ∧
    ∀ type key world, SyntaxWalk.walk 9 diver .visit (some 2)
      ⟨(Walk.selfLoop.ofJson nestedJson).2, ()⟩ ≠ some (.error (.cyclicChild type key), world) := by
  have hd : nestedJson.Distinct := by
    simp [nestedJson, Json.Distinct, Json.DistinctAll, Json.DistinctMembers]
  have hroot : Walk.selfLoop.nodeOfJson? nestedJson =
    (some 2, (Walk.selfLoop.ofJson nestedJson).2) := rfl
  obtain ⟨-, hwalks⟩ := planted_tree_never_cyclic Walk.selfLoop nestedJson hd
  obtain ⟨hplanted, hwalks⟩ := hwalks 2 _ hroot
  obtain ⟨hrefuses, hends⟩ := hwalks Unit Unit diver _ (diver_downward _) 9 .visit ()
  exact ⟨hd, hroot, hplanted, hrefuses, hends _ diver_honest fun _ he => he⟩

end Trace

end SyntaxWalk
