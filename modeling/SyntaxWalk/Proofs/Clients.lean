/-
Programs that hold nodes. A program makes nodes, copies and gives up handles, sets and removes
fields, makes and upgrades weak handles, and walks, with handlers that do all this while they are
called. Each operation is a step of counting owners, or it does nothing.
-/
import Mathlib.Data.Multiset.AddSub
import SyntaxWalk.Proofs.Ownership
import SyntaxWalk.Proofs.Trace

namespace SyntaxWalk

variable {ρ α : Type}

/-! ## Programs -/

/-- What a program and its handlers hold: handles, weak handles, and whatever else they remember. -/
structure Client (ρ : Type) where
  handles : List NodeId
  weak : List (Option NodeId)
  memory : ρ

/-- What can be done with nodes. -/
inductive Operation where
  /-- Makes a node without fields. -/
  | create
  /-- Copies a handle. -/
  | clone (id : NodeId)
  /-- Copies an edge in a field of a node, maybe one within lists, as a handle. -/
  | fetch (id : NodeId) (key : String) (child : NodeId)
  /-- Gives up a handle. -/
  | drop (id : NodeId)
  /-- Sets a field. The edges of the value are handles that are given away. -/
  | insert (id : NodeId) (key : String) (value : Value)
  /-- Removes a field. The edges of its value become handles. -/
  | remove (id : NodeId) (key : String)
  /-- Makes a weak handle: of a handle, of a back-reference, or with nothing to point at. -/
  | weaken (target : Option NodeId)
  /-- Gives up a weak handle. -/
  | forget (target : Option NodeId)
  /-- Makes a handle of a weak handle, if its target is alive. -/
  | upgrade (target : Option NodeId)

/-- Takes handles. -/
def World.take (world : World (Client ρ)) (ids : List NodeId) : World (Client ρ) :=
  { world with host.handles := ids ++ world.host.handles }

/-- What an operation does, for a program to which some nodes are lent besides those that it holds.
An operation on a node that is neither does nothing, nor does one that gives away handles that are
not there. -/
def Operation.perform (lent : List NodeId) (alive : Liveness) (world : World (Client ρ)) :
    Operation → World (Client ρ)
  | .create => World.take { world with heap := (world.heap.alloc ∅).2 } [world.heap.size]
  | .clone id => if id ∈ lent ++ world.host.handles then world.take [id] else world
  | .fetch id key child =>
    if id ∈ lent ++ world.host.handles ∧ child ∈ world.heap.ownedAt id key then world.take [child]
    else world
  | .drop id => { world with host.handles := world.host.handles.erase id }
  | .insert id key value =>
    if id ∈ lent ++ world.host.handles ∧
        (value.owned : Multiset NodeId) ≤ world.host.handles then
      ⟨world.heap.insert id key value,
        { world.host with handles := world.host.handles.diff value.owned }⟩
    else world
  | .remove id key =>
    if id ∈ lent ++ world.host.handles then
      World.take { world with heap := world.heap.erase id key } (world.heap.ownedAt id key)
    else world
  | .weaken target => { world with host.weak := target :: world.host.weak }
  | .forget target => { world with host.weak := world.host.weak.erase target }
  | .upgrade target =>
    if target ∈ world.host.weak then
      world.take (target.filter (alive world.host.handles)).toList
    else world

/-- What a handler does: a script whose changes to the nodes are operations. -/
inductive Conduct (ρ α : Type) where
  | done (outcome : Outcome)
  | look (next : World (Client ρ) → Liveness → Conduct ρ α)
  | perform (operation : Operation) (next : Conduct ρ α)
  | note (f : ρ → ρ) (next : Conduct ρ α)
  | depth (next : Nat → Conduct ρ α)
  | options (next : Options → Conduct ρ α)
  | go (mode : Mode) (node : Option NodeId) (next : Outcome → Conduct ρ α)
  | walk (mode : Mode) (handlers : Handlers α) (node : NodeId) (next : Outcome → Conduct ρ α)

/-- The script of a handler to which some nodes are lent. It can have a walker go on only at nodes
that are lent to it or that it holds. -/
def Conduct.script (lent : List NodeId) : Conduct ρ α → Script (Client ρ) α
  | .done outcome => .done outcome
  | .look next => .inspect fun world alive => (next world alive).script lent
  | .perform operation next =>
    .inspect fun _ alive => .change (operation.perform lent alive) (next.script lent)
  | .note f next =>
    .change (fun world => { world with host.memory := f world.host.memory }) (next.script lent)
  | .depth next => .depth fun n => (next n).script lent
  | .options next => .options fun o => (next o).script lent
  | .go mode node next => .inspect fun world _ =>
    .go mode (node.filter (· ∈ lent ++ world.host.handles)) fun outcome =>
      (next outcome).script lent
  | .walk mode handlers id next => .inspect fun world _ =>
    if id ∈ lent ++ world.host.handles then
      .walk mode handlers id fun outcome => (next outcome).script lent
    else (next (.ok ())).script lent

/-- What handlers do, and what becomes of notices. -/
structure Behaviour (ρ α : Type) where
  conduct : α → NodeId → Conduct ρ α
  notify : Notice → Heap → ρ → ρ

/-- The host of a walk. To a handler the node is lent for which it is called. -/
def Behaviour.host (behaviour : Behaviour ρ α) : Host (Client ρ) α where
  behave handler id := (behaviour.conduct handler id).script [id]
  notify notice heap client := { client with memory := behaviour.notify notice heap client.memory }

/-- What a program does: an operation, or a walk from a node that it holds. -/
inductive Errand (α : Type) where
  | perform (operation : Operation)
  | walk (limit : Nat) (options : Options) (handlers : Handlers α) (mode : Mode) (node : NodeId)

/-- Does errands one after the other, until a walk nests too deep. -/
def Behaviour.run (behaviour : Behaviour ρ α) :
    List (Errand α) → World (Client ρ) → Option (World (Client ρ))
  | [], world => some world
  | .perform operation :: rest, world =>
    behaviour.run rest (operation.perform [] (Walk.alive world.heap []) world)
  | .walk limit options handlers mode id :: rest, world =>
    (walk limit ⟨behaviour.host, options, handlers⟩ mode
        (if id ∈ world.host.handles then some id else none) world).bind fun (_, later) =>
      behaviour.run rest later

namespace Trace

/-- The moments of errands: one before each of them, those of the walks, and one in the end. -/
def play (behaviour : Behaviour ρ α) :
    List (Errand α) → World (Client ρ) → Run (Client ρ) α Walker (World (Client ρ))
  | [], world => .mark ⟨.act, [], ⟨world, {}⟩⟩ (.pure world)
  | .perform operation :: rest, world =>
    .mark ⟨.act, [], ⟨world, {}⟩⟩
      (play behaviour rest (operation.perform [] (Walk.alive world.heap []) world))
  | .walk limit options handlers mode id :: rest, world =>
    .mark ⟨.act, [], ⟨world, {}⟩⟩ <|
      (walk Walker.keeping limit ⟨behaviour.host, options, handlers⟩ mode
          (if id ∈ world.host.handles then some id else none) world).bind fun (_, later) =>
        play behaviour rest later

end Trace

/-! ## Operations as steps of counting -/

namespace Store

variable {s : Store} {heap : Heap} {handles : Multiset NodeId} {id : NodeId}

/-- A store has the given nodes and handles, and its counts are right. -/
structure Has (s : Store) (heap : Heap) (handles : Multiset NodeId) : Prop where
  heap_eq : s.heap = heap
  handles_eq : s.handles = handles
  sound : s.Sound

theorem Has.mem_strong_iff {handles : List NodeId} (h : s.Has heap handles) :
    id ∈ s.strong ↔ heap.isAlive handles id = true := by
  obtain ⟨rfl, hh, hs⟩ := h
  unfold Sound at hs
  rw [hh] at hs
  exact hs.isAlive_iff.symm

theorem Step.reaches {t : Store} (h : Step s t) (hs : s.Sound) :
    ∃ u, Steps s u ∧ u.Has t.heap t.handles :=
  ⟨t, .single h, rfl, rfl, h.sound hs⟩

theorem Has.clone (h : s.Has heap handles) (hid : id ∈ handles) :
    ∃ t, Steps s t ∧ t.Has heap (id ::ₘ handles) := by
  obtain ⟨rfl, rfl, hs⟩ := h
  exact (Step.clone s hid).reaches hs

theorem Has.drop (h : s.Has heap handles) (hid : id ∈ handles) :
    ∃ t, Steps s t ∧ t.Has heap (handles.erase id) := by
  obtain ⟨rfl, rfl, hs⟩ := h
  exact (Step.drop s hid).reaches hs

/-- The edges that are read out of a field are copied one after the other. -/
theorem Has.fetchAll (hid : id ∈ handles) :
    ∀ {ids : List NodeId} {s : Store}, s.Has heap handles → (∀ n ∈ ids, heap.Owns id n) →
      ∃ t, Steps s t ∧ t.Has heap (ids + handles)
  | [], s, h, _ => ⟨s, .refl, by simpa using h⟩
  | n :: rest, s, h, hown => by
    obtain ⟨t, hst, ht⟩ := fetchAll hid h fun m hm => hown m (List.mem_cons_of_mem _ hm)
    obtain ⟨rfl, hh, hs⟩ := ht
    have hheld : id ∈ t.handles := hh ▸ Multiset.mem_add.2 (.inr hid)
    obtain ⟨u, htu, hu⟩ := (Step.fetch t hheld (hown n List.mem_cons_self)).reaches hs
    refine ⟨u, hst.trans htu, ?_⟩
    rwa [← Multiset.cons_coe, Multiset.cons_add, ← hh]

theorem Has.dropAll :
    ∀ {ids : List NodeId} {s : Store}, s.Has heap (ids + handles) →
      ∃ t, Steps s t ∧ t.Has heap handles
  | [], s, h => ⟨s, .refl, by simpa using h⟩
  | n :: rest, s, h => by
    rw [← Multiset.cons_coe, Multiset.cons_add] at h
    obtain ⟨t, hst, ht⟩ := h.drop (Multiset.mem_cons_self _ _)
    rw [Multiset.erase_cons_head] at ht
    obtain ⟨u, htu, hu⟩ := dropAll ht
    exact ⟨u, hst.trans htu, hu⟩

/-- The store of a world, when calls under way hold nodes besides the program. -/
def Fits (s : Store) (world : World (Client ρ)) (held : List Hold) : Prop :=
  s.Has world.heap (world.host.handles + Hold.nodes held)

theorem Fits.mem_strong_iff {world : World (Client ρ)} {held : List Hold} (h : s.Fits world held) :
    id ∈ s.strong ↔ Walk.alive world.heap held world.host.handles id = true := by
  unfold Fits at h
  rw [Multiset.coe_add] at h
  exact h.mem_strong_iff

/-- An operation is a step of counting, or nothing happens. -/
theorem Fits.perform {world : World (Client ρ)} {held : List Hold} (h : s.Fits world held)
    {lent : List NodeId} (hlent : lent ⊆ Hold.nodes held) (operation : Operation) :
    ∃ t, Steps s t ∧
      t.Fits (operation.perform lent (Walk.alive world.heap held) world) held := by
  -- What a client may name is one of its handles, or lent to it by a call that holds it.
  have hreach : ∀ id ∈ lent ++ world.host.handles,
      id ∈ (world.host.handles : Multiset NodeId) + Hold.nodes held := by
    intro id hid
    rcases List.mem_append.1 hid with hid | hid
    · exact Multiset.mem_add.2 (.inr (Multiset.mem_coe.2 (hlent hid)))
    · exact Multiset.mem_add.2 (.inl (Multiset.mem_coe.2 hid))
  -- Most steps leave one handle more, which the client takes.
  have htake : ∀ {heap : Heap} {id : NodeId},
      (∃ t, Steps s t ∧ t.Has heap (id ::ₘ (world.host.handles + Hold.nodes held))) →
      ∃ t, Steps s t ∧ t.Fits (World.take { world with heap } [id]) held := by
    rintro heap id ⟨t, hst, ht⟩
    exact ⟨t, hst, by rwa [← Multiset.cons_add, Multiset.cons_coe] at ht⟩
  have hstay : ∃ t, Steps s t ∧ t.Fits world held := ⟨s, .refl, h⟩
  have hcount : ∀ id, Walk.alive world.heap held world.host.handles id = true →
      0 < s.strong.count id := fun id halive => Multiset.count_pos.2 (h.mem_strong_iff.2 halive)
  obtain ⟨heap, handles, strong⟩ := s
  obtain ⟨rfl, rfl, hs⟩ := h
  -- An operation is the step of the same name, or it does nothing because what it needs is missing.
  cases operation with
  | create => exact htake ((Step.create _).reaches hs)
  | clone id =>
    simp only [Operation.perform]
    split
    · rename_i hid
      exact htake ((Step.clone _ (hreach id hid)).reaches hs)
    · exact hstay
  | fetch id key child =>
    simp only [Operation.perform]
    split
    · rename_i hid
      have hown := Heap.owns_of_mem_ownedAt hid.2
      exact htake ((Step.fetch _ (hreach id hid.1) hown).reaches hs)
    · exact hstay
  | drop id =>
    by_cases hid : id ∈ world.host.handles
    · obtain ⟨t, hst, ht⟩ := (Step.drop _ (hreach id (List.mem_append_right _ hid))).reaches hs
      rw [Multiset.erase_add_left_pos _ (Multiset.mem_coe.2 hid), Multiset.coe_erase] at ht
      exact ⟨t, hst, ht⟩
    · simp only [Operation.perform, List.erase_of_not_mem hid]
      exact hstay
  | insert id key value =>
    simp only [Operation.perform]
    split
    · rename_i hid
      have hvalue : (value.owned : Multiset NodeId) ≤ world.host.handles + Hold.nodes held :=
        hid.2.trans (Multiset.le_add_right _ _)
      obtain ⟨t, hst, ht⟩ := (Step.insert _ key (hreach id hid.1) hvalue).reaches hs
      rw [← tsub_add_eq_add_tsub hid.2, Multiset.coe_sub] at ht
      exact ⟨t, hst, ht⟩
    · exact hstay
  | remove id key =>
    simp only [Operation.perform]
    split
    · rename_i hid
      obtain ⟨t, hst, ht⟩ : ∃ t, Steps _ t ∧ t.Has (world.heap.erase id key)
          (world.host.handles + Hold.nodes held + world.heap.ownedAt id key) :=
        (Step.remove _ key (hreach id hid)).reaches hs
      rw [add_comm, ← add_assoc, Multiset.coe_add] at ht
      exact ⟨t, hst, ht⟩
    · exact hstay
  | weaken target => exact hstay
  | forget target => exact hstay
  | upgrade target =>
    simp only [Operation.perform]
    split
    · cases hup : target.filter (Walk.alive world.heap held world.host.handles) with
      | none => exact hstay
      | some id =>
        have halive := (Option.filter_eq_some_iff.1 hup).2
        exact htake ((Step.upgrade _ (hcount id halive)).reaches hs)
    · exact hstay

end Store

end SyntaxWalk
