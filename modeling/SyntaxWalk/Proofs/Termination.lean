/-
Walks that go inward end. If handlers change no nodes and have the walker go on only at the children
of their own node, as often as they like and whatever comes of it, then a walk ends on every heap,
with cycles of owning edges or without. A child is visited only if it is not being expanded, so the
nodes that are being expanded are all different, and each of them but the innermost owns the next
one.
-/
import SyntaxWalk.Proofs.Heaps
import SyntaxWalk.Proofs.Restore

namespace SyntaxWalk

variable {σ α : Type}

/-! ## Handlers that go inward -/

/-- A script that changes no nodes, and has the walker go on only at the children of the given
node. -/
def Script.Inward (id : NodeId) : Script σ α → Prop
  | .done _ => True
  | .inspect next => ∀ world alive, (next world alive).Inward id
  | .change f next => (∀ world, (f world).heap = world.heap) ∧ next.Inward id
  | .depth next => ∀ depth, (next depth).Inward id
  | .options next => ∀ options, (next options).Inward id
  | .go mode node next => (mode = .children ∧ node = some id) ∧ ∀ outcome, (next outcome).Inward id
  | .walk _ _ _ _ => False

/-- The handlers of a walk go inward. -/
def Walk.Setting.Inward (setting : Walk.Setting σ α) : Prop :=
  ∀ type handler, setting.handlers.get? type = some handler →
    ∀ id, (setting.host.behave handler id).Inward id

/-- Every node that a node owns is in the heap. -/
def Heap.Closed (heap : Heap) : Prop := ∀ a b, heap.Owns a b → b < heap.size

namespace Trace

/-! ## Runs that settle -/

section

variable (heap : Heap) (root : NodeId)

/-- Nodes that may be under expansion in a walk from a root: all different, and each the root or a
node that is owned. -/
structure Line (nodes : List NodeId) : Prop where
  nodup : nodes.Nodup
  owned : ∀ a ∈ nodes, a = root ∨ ∃ b, heap.Owns b a

/-- A run ends, with the nodes as they were and with the given ones under expansion. At all its
moments the nodes under expansion are in line. -/
structure Settles (nodes : List NodeId) (x : CallRun σ α Walker) : Prop where
  ends : ∃ outcome t, x.result = some (outcome, t) ∧ Standing heap nodes t
  inLine : ∀ m ∈ x.moments, Line heap root m.state.book.ancestors

end

variable {heap : Heap} {root : NodeId} {nodes : List NodeId}

/-- A line of different nodes is no longer than there are nodes. -/
theorem Line.length_le (h : Line heap root nodes) (hclosed : heap.Closed)
    (hroot : root < heap.size) : nodes.length ≤ heap.size := by
  refine Heap.length_le_size h.nodup fun a ha => ?_
  rcases h.owned a ha with rfl | ⟨b, hb⟩
  · exact hroot
  · exact hclosed b a hb

theorem Line.cons {id child : NodeId} (h : Line heap root (id :: nodes)) (hown : heap.Owns id child)
    (hmem : child ∉ id :: nodes) : Line heap root (child :: id :: nodes) := by
  refine ⟨List.nodup_cons.2 ⟨hmem, h.nodup⟩, fun a ha => ?_⟩
  rcases List.mem_cons.1 ha with rfl | ha
  · exact .inr ⟨id, hown⟩
  · exact h.owned a ha

theorem Line.tail {id : NodeId} (h : Line heap root (id :: nodes)) : Line heap root nodes :=
  ⟨(List.nodup_cons.1 h.nodup).2, fun a ha => h.owned a (List.mem_cons_of_mem _ ha)⟩

section

variable {x : CallRun σ α Walker} {s : State σ Walker}

theorem Settles.pure (hs : Standing heap nodes s) (outcome : Outcome) :
    Settles heap root nodes (.pure (outcome, s) : CallRun σ α Walker) :=
  ⟨⟨outcome, s, rfl, hs⟩, fun m hm => by cases hm⟩

theorem Settles.mark {m : Moment σ α Walker} (hm : Line heap root m.state.book.ancestors)
    (h : Settles heap root nodes x) : Settles heap root nodes (x.mark m) := by
  refine ⟨h.ends, fun m' hm' => ?_⟩
  rcases List.mem_cons.1 hm' with rfl | hm'
  · exact hm
  · exact h.inLine m' hm'

/-- A run that has an end goes on from there. -/
theorem Settles.bind {later : List NodeId} {f : Outcome × State σ Walker → CallRun σ α Walker}
    (h : Settles heap root nodes x)
    (hf : ∀ outcome t, Standing heap nodes t → Settles heap root later (f (outcome, t))) :
    Settles heap root later (x.bind f) := by
  obtain ⟨⟨outcome, t, hx, ht⟩, hline⟩ := h
  obtain ⟨⟨outcome', t', hf', ht'⟩, hline'⟩ := hf outcome t ht
  refine ⟨⟨outcome', t', ?_, ht'⟩, fun m hm => ?_⟩
  · rw [Run.result_bind, hx]
    exact hf'
  · rw [moments_bind_of_result hx] at hm
    exact (List.mem_append.1 hm).elim (hline m) (hline' m)

theorem Settles.thenOk {next : State σ Walker → CallRun σ α Walker} (h : Settles heap root nodes x)
    (hnext : ∀ t, Standing heap nodes t → Settles heap root nodes (next t)) :
    Settles heap root nodes (x.thenOk next) := by
  refine h.bind fun outcome t ht => ?_
  cases outcome with
  | error e => exact .pure ht _
  | ok _ => exact hnext t ht

end

/-! ## Step by step -/

section

variable (call : Call σ α Walker) (setting : Walk.Setting σ α)

variable (heap root nodes) in
/-- Going on at a node settles, whenever the given nodes are under expansion. -/
def GoesOn (mode : Mode) (id : NodeId) : Prop :=
  ∀ (held : List Hold) (s : State σ Walker), Standing heap nodes s →
    Settles heap root nodes (call setting held mode id s)

variable {call setting} {held : List Hold} {s : State σ Walker}

/-- Fields settle if the visits of the children do that are not under expansion. -/
theorem steady_settles (hline : Line heap root nodes) (held : List Hold) (id : NodeId)
    (type : String)
    (hgo : ∀ child, heap.Owns id child → child ∉ nodes →
      GoesOn heap root nodes call setting .visit child) :
    Steady ⟨Walker.keeping, call, setting, held⟩ id type (Standing heap nodes)
      fun _ x => Settles heap root nodes x where
  done hs := .pure hs _
  thenOk hx hf := hx.thenOk hf
  read hs hx := .mark (by rwa [hs.ancestors]) hx
  refused _ _ hs _ := .mark (by rwa [hs.ancestors]) (.pure hs _)
  visited hread hc hs ho := by
    rw [hread.heap_eq] at hc
    refine .mark (by rwa [hs.ancestors]) (hgo _ ?_ ((hs.isOpen_eq_false_iff _).1 ho) _ _ hs)
    exact Heap.owns_of_mem_visitables (Heap.of_mem_candidates hc).2.1

/-- An expansion settles if the visits of the children do that are not under expansion. -/
theorem expand_settles {id : NodeId} (hline : Line heap root (id :: nodes))
    (hgo : ∀ child, heap.Owns id child → child ∉ id :: nodes →
      GoesOn heap root (id :: nodes) call setting .visit child) (type : String)
    (hs : Standing heap nodes s) : Settles heap root nodes
      (expand Walker.keeping call setting held id type s) := by
  have hs' := hs.announce setting id type
  unfold expand
  refine Settles.mark (by rw [hs.ancestors]; exact hline.tail) ?_
  cases setting.options.resolveKeys s.world.heap id type with
  | error e => exact .pure hs' _
  | ok keys =>
    refine ((steady_settles hline _ id type hgo).walkFields keys (hs'.enter id)).bind
      fun outcome t ht => .mark ?_ (.pure (ht.leave hs') outcome)
    rwa [ht.ancestors]

/-- A script that goes inward asks for expansions of its own node only. -/
theorem runScript_settles (hline : Line heap root nodes) {id : NodeId}
    (hgo : GoesOn heap root nodes call setting .children id) {script : Script σ α}
    (hscript : script.Inward id) (s : State σ Walker) (hs : Standing heap nodes s) :
    Settles heap root nodes (runScript Walker.keeping call setting held script s) := by
  have hact : ∀ {s : State σ Walker}, Standing heap nodes s → Line heap root s.book.ancestors :=
    fun hs => by rwa [hs.ancestors]
  induction script generalizing s with
  | done outcome => exact .mark (hact hs) (.pure hs _)
  | inspect next ih => exact .mark (hact hs) (ih _ _ (hscript _ _) s hs)
  | change f next ih =>
    -- The nodes stay as they are, so only the state of the host is new.
    exact .mark (hact hs) (ih hscript.2 _ (hs.change ((hscript.1 _).trans hs.heap_eq)))
  | depth next ih => exact .mark (hact hs) (ih _ (hscript _) s hs)
  | options next ih => exact .mark (hact hs) (ih _ (hscript _) s hs)
  | go mode node next ih =>
    obtain ⟨⟨rfl, rfl⟩, hnext⟩ := hscript
    exact .mark (hact hs) ((hgo _ s hs).bind fun outcome t ht => ih outcome (hnext outcome) t ht)
  | walk => exact hscript.elim

end

/-! ## Walks that end -/

section

variable {setting : Walk.Setting σ α}

/-- An expansion goes on at children that are not being expanded, each of which makes the line
longer. -/
theorem children_goesOn {limit : Nat} {id : NodeId} (hline : Line heap root (id :: nodes))
    (hgo : ∀ child, heap.Owns id child → child ∉ id :: nodes →
      GoesOn heap root (id :: nodes) (run Walker.keeping limit) setting .visit child) :
    GoesOn heap root nodes (run Walker.keeping (limit + 1)) setting .children id :=
  fun _ _ hs => expand_settles hline hgo _ hs

/-- A visit settles if calls may nest deep enough. With each outer node the bound goes down by one:
an outer node owns something, so it is in the heap, and there are no more of them than the heap has
nodes. -/
theorem visit_goesOn (hin : setting.Inward) :
    ∀ (bound limit : Nat) (nodes : List NodeId) (id : NodeId), Line heap root (id :: nodes) →
    (∀ a ∈ nodes, a < heap.size) → heap.size < nodes.length + bound → 2 * bound ≤ limit →
    GoesOn heap root nodes (run Walker.keeping limit) setting .visit id
  | 0, _, nodes, _, hline, hlt, hb, _ => by
    have hle := Heap.length_le_size hline.tail.nodup hlt
    omega
  | bound + 1, 0, _, _, _, _, _, hl => by omega
  | bound + 1, 1, _, _, _, _, _, hl => by omega
  | bound + 1, limit + 2, nodes, id, hline, hlt, hb, hl => by
    -- Both `limit` and `limit + 1` are enough for the children.
    have hchild : ∀ l, limit ≤ l → ∀ child, heap.Owns id child → child ∉ id :: nodes →
        GoesOn heap root (id :: nodes) (run Walker.keeping l) setting .visit child := by
      intro l hle child hown hmem
      refine visit_goesOn hin bound l (id :: nodes) child (hline.cons hown hmem) ?_
        (by rw [List.length_cons]; omega) (by omega)
      intro a ha
      rcases List.mem_cons.1 ha with rfl | ha
      · exact hown.lt_size
      · exact hlt a ha
    intro held s hs
    show Settles heap root nodes (respond Walker.keeping (run Walker.keeping (limit + 1)) setting
      held .visit id s)
    simp only [respond]
    cases hh : setting.handlers.get? (s.world.heap.effectiveType id) with
    | none => exact expand_settles hline (hchild (limit + 1) (Nat.le_succ _)) _ hs
    | some handler =>
      refine Settles.mark (by rw [hs.ancestors]; exact hline.tail) ?_
      exact runScript_settles hline.tail (children_goesOn hline (hchild limit (Nat.le_refl _)))
        (hin _ handler hh id) _ (hs.notify setting _)

/-- The line gets no longer than there are nodes, and each of them takes two calls at most. -/
theorem root_goesOn (hin : setting.Inward) (heap : Heap) (mode : Mode) (root : NodeId) {limit : Nat}
    (hl : 2 * (heap.size + 1) ≤ limit) :
    GoesOn heap root [] (run Walker.keeping limit) setting mode root := by
  have hline : Line heap root [root] :=
    ⟨List.pairwise_singleton _ root, fun a ha => .inl (List.mem_singleton.1 ha)⟩
  cases mode with
  | visit => exact visit_goesOn hin (heap.size + 1) limit [] root hline (by simp) (by simp) hl
  | children =>
    obtain ⟨l, rfl⟩ : ∃ l, limit = l + 1 := ⟨limit - 1, by omega⟩
    refine children_goesOn hline fun child hown hmem => ?_
    exact visit_goesOn hin heap.size l [root] child (hline.cons hown hmem)
      (by simpa using hown.lt_size) (by simp) (by omega)

end

/-- Let handlers change no nodes, and have the walker go on only at the children of their own node.
Then a walk ends, if calls may nest twice as deep as there are nodes, and two more. At no moment of
it is a node twice under expansion, so the depth is never greater than the number of nodes. -/
theorem inward_walk_ends (setting : Walk.Setting σ α) (hin : setting.Inward) (heap : Heap)
    (mode : Mode) (root : NodeId) (host : σ) :
    ∀ limit ≥ 2 * (heap.size + 1),
      (∃ outcome host', SyntaxWalk.walk limit setting mode (some root) ⟨heap, host⟩ =
        some (outcome, ⟨heap, host'⟩)) ∧
      ∀ m ∈ (walk Walker.keeping limit setting mode (some root) ⟨heap, host⟩).moments,
        m.state.book.ancestors.Nodup ∧
          (heap.Closed → root < heap.size → m.state.book.depth ≤ heap.size) := by
  intro limit hl
  have hsettles := root_goesOn hin heap mode root hl [.node root] _ (.mk host Walker.lists_new)
  constructor
  · obtain ⟨outcome, _, hr, host', -⟩ := hsettles.ends
    exact ⟨outcome, host', walk_eq_of_run hr⟩
  · intro m hm
    unfold walk at hm
    rw [moments_inWorld] at hm
    have hline := hsettles.inLine m hm
    exact ⟨hline.nodup, fun hclosed hroot => hline.length_le hclosed hroot⟩

/-- Two nodes, each of which owns the other. -/
def ring : Heap := ⟨#[⟨[("type", .string "Ring"), ("next", .node 1)], by simp⟩,
  ⟨[("type", .string "Ring"), ("next", .node 0)], by simp⟩]⟩

theorem ring_closed : ring.Closed := by
  intro a b h
  have hall : ∀ a < ring.size, ∀ b ∈ (ring.fields a).owned, b < ring.size := by decide
  exact hall a h.lt_size b h

/-- A handler that expands its node, and once more, and ignores how that ends. -/
def twiceInward : Walk.Setting Unit Unit where
  host := ⟨fun _ id => .go .children (some id) fun _ => .go .children (some id) fun _ =>
      .done (.ok ()),
    fun _ _ host => host⟩
  options := { overrides := StringMap.empty.insert "Ring" ["next"] }
  handlers := Record.empty.insert "Ring" ()

theorem twiceInward_inward : twiceInward.Inward :=
  fun _ _ _ _ => ⟨⟨rfl, rfl⟩, fun _ => ⟨⟨rfl, rfl⟩, fun _ => trivial⟩⟩

/-- Though a ring has no end, a walk around it does. -/
theorem inward_walk_ends_ring :
    (∃ outcome host', SyntaxWalk.walk 6 twiceInward .visit (some 0) ⟨ring, ()⟩ =
      some (outcome, ⟨ring, host'⟩)) ∧
    ∀ m ∈ (walk Walker.keeping 6 twiceInward .visit (some 0) ⟨ring, ()⟩).moments,
      m.state.book.ancestors.Nodup ∧ m.state.book.depth ≤ 2 := by
  obtain ⟨hends, hmoments⟩ := inward_walk_ends twiceInward twiceInward_inward ring .visit 0 () 6
    (by decide)
  exact ⟨hends, fun m hm => ⟨(hmoments m hm).1, (hmoments m hm).2 ring_closed (by decide)⟩⟩

end Trace

end SyntaxWalk
