/-
The check for cycles. A walker finds at once whether a child is being expanded, because it keeps the
nodes that it expands also as a set. A plain walker has no such set and searches the nodes one after
the other. Whatever handlers do, the two go through the same moments: the set holds the nodes that
are being expanded at each of them, and the calls under way hold these nodes, so that no other node
can come to stand where one of them stands.
-/
import Mathlib.Data.List.Forall2
import SyntaxWalk.Proofs.Restore
import SyntaxWalk.Proofs.Trace

namespace SyntaxWalk

/-- The nodes in order and nothing else: a node is searched among them. -/
def Keeping.plain : Keeping (List NodeId) where
  new := []
  depth := List.length
  isOpen nodes id := nodes.any (· == id)
  enter nodes id := id :: nodes
  leave nodes _ _ := nodes.tail

namespace Trace

variable {σ α : Type}

/-! ## Two runs side by side -/

/-- A moment of a walker and one of a plain walker are the same, and the nodes that are being
expanded are held. -/
structure Moment.Agrees (m : Moment σ α Walker) (n : Moment σ α (List NodeId)) : Prop where
  deed : m.deed = n.deed
  held : m.held = n.held
  world : m.state.world = n.state.world
  lists : m.state.book.Lists n.state.book
  kept : n.state.book ⊆ Hold.nodes m.held
  checked : ∀ type key child refused, m.deed = .check type key child refused →
    refused = m.state.book.isOpen child ∧ child ∈ Hold.nodes m.held

/-- Two runs pass the same moments and end alike, or both nest too deep. In the end the given nodes
are being expanded. -/
inductive Agree (nodes : List NodeId) : CallRun σ α Walker → CallRun σ α (List NodeId) → Prop where
  | tooDeep {ms ns} (h : List.Forall₂ Moment.Agrees ms ns) : Agree nodes ⟨ms, none⟩ ⟨ns, none⟩
  | ended {ms ns outcome world w} (h : List.Forall₂ Moment.Agrees ms ns) (hw : w.Lists nodes) :
    Agree nodes ⟨ms, some (outcome, ⟨world, w⟩)⟩ ⟨ns, some (outcome, ⟨world, nodes⟩)⟩

section

variable {nodes nodes' : List NodeId} {w : Walker} {world : World σ} {outcome : Outcome}
  {x : CallRun σ α Walker} {y : CallRun σ α (List NodeId)}

theorem Agree.pure {s : State σ Walker} {t : State σ (List NodeId)} (hworld : t.world = s.world)
    (hlists : s.book.Lists t.book) (outcome : Outcome) :
    Agree t.book (.pure (outcome, s) : CallRun σ α Walker) (.pure (outcome, t)) := by
  obtain ⟨world, w⟩ := s
  obtain ⟨_, nodes⟩ := t
  cases hworld
  exact .ended .nil hlists

theorem Agree.mark {m : Moment σ α Walker} {n : Moment σ α (List NodeId)} (hm : m.Agrees n)
    (h : Agree nodes x y) : Agree nodes (x.mark m) (y.mark n) := by
  cases h with
  | tooDeep h => exact .tooDeep (.cons hm h)
  | ended h hw => exact .ended (.cons hm h) hw

/-- Runs that agree go on from worlds that are the same, with the same nodes remembered. -/
theorem Agree.bind {f : Outcome × State σ Walker → CallRun σ α Walker}
    {g : Outcome × State σ (List NodeId) → CallRun σ α (List NodeId)} (h : Agree nodes x y)
    (hf : ∀ outcome world w, w.Lists nodes →
      Agree nodes' (f (outcome, ⟨world, w⟩)) (g (outcome, ⟨world, nodes⟩))) :
    Agree nodes' (x.bind f) (y.bind g) := by
  cases h with
  | tooDeep h =>
    simp only [Run.bind, Option.bind_none, List.append_nil]
    exact .tooDeep h
  | @ended ms ns outcome world w h hw =>
    have hk := hf outcome world w hw
    simp only [Run.bind, Option.bind_some]
    generalize f (outcome, ⟨world, w⟩) = p at hk
    generalize g (outcome, ⟨world, nodes⟩) = q at hk
    cases hk with
    | tooDeep h' => exact .tooDeep (List.rel_append h h')
    | ended h' hw' => exact .ended (List.rel_append h h') hw'

end

/-! ## Step by step -/

/-- The books of both remember the same nodes, and these are held. -/
structure Abreast (held : List Hold) (s : State σ Walker) (t : State σ (List NodeId)) : Prop where
  world : t.world = s.world
  lists : s.book.Lists t.book
  kept : t.book ⊆ Hold.nodes held

/-- States in which the same nodes are remembered go on matching, whatever handlers do. -/
theorem matching_abreast : Matching Walker.keeping Keeping.plain (Abreast (σ := σ)) where
  world h := h.world
  depth h := (congrArg List.length h.lists.ancestors).symm
  isOpen h child := (h.lists.isOpen child).symm
  change h _ := ⟨rfl, h.lists, h.kept⟩
  hold h _ := ⟨h.world, h.lists, fun _ hid => List.mem_append_right _ (h.kept hid)⟩
  new _ _ := ⟨rfl, Walker.lists_new, List.nil_subset _⟩
  enter h id := ⟨h.world, h.lists.enter id, List.cons_subset_cons id h.kept⟩

theorem Abreast.agrees {held : List Hold} {s : State σ Walker} {t : State σ (List NodeId)}
    (h : Abreast held s t) {deed : Deed α}
    (hd : ∀ type key child refused, deed ≠ .check type key child refused) :
    Moment.Agrees ⟨deed, held, s⟩ ⟨deed, held, t⟩ :=
  ⟨rfl, rfl, h.world.symm, h.lists, h.kept, fun _ _ _ _ heq => (hd _ _ _ _ heq).elim⟩

/-- An expansion enters its node in both books and leaves it in both. A walk that a script starts
has a book of its own; afterwards the old one is taken up. -/
theorem accord_agree :
    Accord Walker.keeping Keeping.plain Abreast
      fun _ _ (t : State σ (List NodeId)) (x : CallRun σ α Walker) y => Agree t.book x y where
  toMatching := matching_abreast
  cut _ := .tooDeep .nil
  pure h := .pure h.world h.lists
  mark hd h hx _ ht := .mark (h.agrees fun _ _ _ _ heq => by rw [heq] at hd; cases hd) (ht ▸ hx)
  check {held slot rest _ _ _ _ _ _ _} h hchild hx := by
    have hkept := (matching_abreast.hold h (.slots (slot :: rest))).kept
    refine Agree.mark ⟨rfl, rfl, h.world.symm, h.lists, hkept, fun _ _ _ _ heq => ?_⟩ hx
    cases heq
    exact ⟨rfl, Hold.mem_nodes_of_node? hchild rest held⟩
  release hx := hx
  bind h hx hf := hx.bind fun outcome world w hw =>
    hf outcome ⟨world, w⟩ ⟨world, _⟩ ⟨rfl, hw, h.kept⟩
  walk _ hx hf := hx.bind fun outcome world w _ => hf outcome world w []
  inside {held id _ t _ _} h hx := hx.bind fun outcome world v hv => by
    have hinside : Abreast (.node id :: held) ⟨world, v⟩ ⟨world, id :: t.book⟩ :=
      ⟨rfl, hv, List.cons_subset_cons id h.kept⟩
    exact .mark (hinside.agrees (by simp)) (.ended .nil (hv.leave h.lists))

/-! ## Whole walks -/

/-- Runs that agree end alike. -/
theorem Agree.inWorld {nodes : List NodeId} {x : CallRun σ α Walker}
    {y : CallRun σ α (List NodeId)} (h : Agree nodes x y) :
    List.Forall₂ Moment.Agrees x.inWorld.moments y.inWorld.moments ∧
      x.inWorld.result = y.inWorld.result := by
  cases h with
  | tooDeep h => exact ⟨by simpa [CallRun.inWorld, Run.bind] using h, rfl⟩
  | ended h _ => exact ⟨by simpa [CallRun.inWorld, Run.bind, Run.pure] using h, rfl⟩

/-- The walks of a walker and of a plain walker pass the same moments and end alike. -/
theorem walk_agree (limit : Nat) (setting : Walk.Setting σ α) (mode : Mode) (node : Option NodeId)
    (world : World σ) :
    List.Forall₂ Moment.Agrees (walk Walker.keeping limit setting mode node world).moments
        (walk Keeping.plain limit setting mode node world).moments ∧
      (walk Walker.keeping limit setting mode node world).result =
        (walk Keeping.plain limit setting mode node world).result := by
  cases node with
  | none => exact ⟨.nil, rfl⟩
  | some id =>
    exact (accord_agree.run setting.host setting.options limit setting.handlers setting.handlers
      (fun _ => rfl) [.node id] mode id ⟨world, {}⟩ ⟨world, []⟩
      (matching_abreast.new _ world)).inWorld

/-- Moments that agree are of the same calls. -/
theorem calls_eq_of_agrees {ms : List (Moment σ α Walker)} {ns : List (Moment σ α (List NodeId))}
    (h : List.Forall₂ Moment.Agrees ms ns) :
    calls Walker.keeping ms = calls Keeping.plain ns := by
  induction h with
  | nil => rfl
  | @cons m n ms ns hm _ ih =>
    have hd : Walker.keeping.depth m.state.book = Keeping.plain.depth n.state.book :=
      congrArg List.length hm.lists.ancestors
    unfold calls at ih ⊢
    rw [List.filterMap_cons, List.filterMap_cons, ih, hm.deed, hd]

theorem Moment.Agrees.mem_openNodes {m : Moment σ α Walker} {n : Moment σ α (List NodeId)}
    (h : m.Agrees n) (id : NodeId) :
    id ∈ m.state.book.openNodes ↔ id ∈ m.state.book.ancestors := by
  rw [← Std.HashSet.contains_iff_mem, h.lists.ancestors]
  exact h.lists.isOpen_iff id

/-- What the set is good for at a moment: it is the set of the nodes that are being expanded, a
child is refused just if it is one of them, and looking for an address among the addresses of the
set finds one of them and no other node that is alive. -/
structure Moment.Exact (m : Moment σ α Walker) : Prop where
  mem_openNodes : ∀ id, id ∈ m.state.book.openNodes ↔ id ∈ m.state.book.ancestors
  held : ∀ id ∈ m.state.book.ancestors, id ∈ Hold.nodes m.held
  refused : ∀ type key child refused, m.deed = .check type key child refused →
    child ∈ Hold.nodes m.held ∧ (refused = true ↔ child ∈ m.state.book.ancestors)
  /-- Nodes that are alive at the same time, those that calls under way hold among them, have
  different addresses. -/
  address : ∀ (live : NodeId → Prop) (place : NodeId → Nat), (∀ id ∈ Hold.nodes m.held, live id) →
    (∀ a b, live a → live b → place a = place b → a = b) → ∀ id, live id →
    ((∃ other ∈ m.state.book.openNodes, place other = place id) ↔ id ∈ m.state.book.ancestors)

/-- Where moments agree, the set is that of the nodes in the list. -/
theorem Moment.Agrees.exact {m : Moment σ α Walker} {n : Moment σ α (List NodeId)}
    (h : m.Agrees n) : m.Exact := by
  have hheld : ∀ id ∈ m.state.book.ancestors, id ∈ Hold.nodes m.held := fun id hid =>
    h.kept (h.lists.ancestors ▸ hid)
  refine ⟨h.mem_openNodes, hheld, fun type key child refused hd => ?_,
    fun live place hlive hplace id hid => ?_⟩
  · obtain ⟨hr, hchild⟩ := h.checked type key child refused hd
    refine ⟨hchild, ?_⟩
    rw [hr, h.lists.isOpen_iff, h.lists.ancestors]
  · constructor
    · rintro ⟨other, ho, heq⟩
      have ho := (h.mem_openNodes other).1 ho
      rwa [← hplace other id (hlive other (hheld other ho)) hid heq]
    · intro ha
      exact ⟨id, (h.mem_openNodes id).2 ha, rfl⟩

/-- The walker with a set and the plain walker agree on every walk: the same handlers are called for
the same nodes at the same depths, the walks end with the same outcome and leave the same world, and
one nests too deep if the other does. At every moment the set is exact. -/
theorem plain_walk_agrees (limit : Nat) (setting : Walk.Setting σ α) (mode : Mode)
    (node : Option NodeId) (world : World σ) :
    (walk Walker.keeping limit setting mode node world).result =
        SyntaxWalk.walk limit setting mode node world ∧
      (walk Keeping.plain limit setting mode node world).result =
        SyntaxWalk.walk limit setting mode node world ∧
      calls Keeping.plain (walk Keeping.plain limit setting mode node world).moments =
        calls Walker.keeping (walk Walker.keeping limit setting mode node world).moments ∧
      ∀ m ∈ (walk Walker.keeping limit setting mode node world).moments, m.Exact := by
  obtain ⟨hms, hr⟩ := walk_agree limit setting mode node world
  have hw := walk_result limit setting mode node world
  refine ⟨hw, hr.symm.trans hw, (calls_eq_of_agrees hms).symm, fun m hm => ?_⟩
  obtain ⟨i, hi, rfl⟩ := List.getElem_of_mem hm
  exact ((List.forall₂_iff_get.1 hms).2 i hi (hms.length_eq ▸ hi)).exact

end Trace

end SyntaxWalk
