/-
The nodes that a walk enters, which are those that it expands. A walk without handlers enters each
node of a tree at most once, if no field of a node is listed twice: below different children of a
node there are different nodes.
-/
import SyntaxWalk.Proofs.Lockstep
import SyntaxWalk.Proofs.Planting

namespace SyntaxWalk

open Relation

/-! ## Children in a tree -/

namespace Heap

variable {heap : Heap}

/-- If a node owns no node twice and no field is listed twice, then no child is listed twice. -/
theorem nodup_flatMap_visitables {id : NodeId} (honce : (heap.fields id).owned.Nodup)
    (type : String) {keys : List String} (hkeys : keys.Nodup) :
    (keys.flatMap (heap.visitables id type)).Nodup := by
  refine List.nodup_flatMap.2 ⟨fun key _ => ?_, hkeys.imp fun {a b} hab child ha hb => ?_⟩
  · unfold visitables
    cases hget : heap.get? id key with
    | none => exact .nil
    | some value =>
      have hvalue := (List.nodup_flatMap.1 honce).1 _ (Record.mem_of_find hget)
      exact hvalue.sublist (heap.visitablesIn_sublist _ value)
  · obtain ⟨value, hvalue, hchild⟩ := exists_entry_of_mem_visitables ha
    obtain ⟨value', hvalue', hchild'⟩ := exists_entry_of_mem_visitables hb
    exact hab (congrArg Prod.fst (eq_of_nodup_flatMap honce hvalue hvalue' hchild hchild'))

/-- Nodes below which there are different nodes. -/
def Apart (heap : Heap) (nodes : List NodeId) : Prop :=
  nodes.Pairwise fun a b => ∀ m, ReflTransGen heap.Owns a m → ¬ReflTransGen heap.Owns b m

/-- In a tree, what is below one child is not below another one. -/
theorem Tree.apart_children {root id : NodeId} (h : heap.Tree root)
    (hid : ReflTransGen heap.Owns root id) (type : String) {keys : List String}
    (hkeys : keys.Nodup) : heap.Apart (keys.flatMap (heap.visitables id type)) := by
  refine (nodup_flatMap_visitables (h.once hid) type hkeys).imp_of_mem fun {a b} ha hb hne m => ?_
  obtain ⟨_, -, ha⟩ := List.mem_flatMap.1 ha
  obtain ⟨_, -, hb⟩ := List.mem_flatMap.1 hb
  exact h.apart hid (owns_of_mem_visitables ha) (owns_of_mem_visitables hb) hne

end Heap

/-- No child field of a node is listed twice. -/
def Options.ListsOnce (options : Options) (heap : Heap) : Prop :=
  ∀ id keys, options.resolveKeys heap id (heap.effectiveType id) = .ok keys → keys.Nodup

/-! ## Nodes that are entered -/

namespace Trace

variable {σ α κ : Type}

/-- The node whose expansion begins. -/
def Deed.entered? : Deed α → Option NodeId
  | .resolve node _ => some node
  | _ => none

/-- The nodes whose expansions begin at the given moments, in order. -/
def entered (moments : List (Moment σ α κ)) : List NodeId := moments.filterMap (·.deed.entered?)

theorem entered_append (a b : List (Moment σ α κ)) : entered (a ++ b) = entered a ++ entered b :=
  List.filterMap_append

theorem entered_mark_none {m : Moment σ α κ} (h : m.deed.entered? = none) {β : Type}
    (x : Run σ α κ β) : entered (x.mark m).moments = entered x.moments :=
  List.filterMap_cons_none h

theorem entered_mark_resolve {β : Type} (id : NodeId) (type : String) (held : List Hold)
    (s : State σ κ) (x : Run σ α κ β) :
    entered (x.mark ⟨.resolve id type, held, s⟩).moments = id :: entered x.moments :=
  List.filterMap_cons_some rfl

/-- A run enters nodes once, all of them below the given ones, and leaves the nodes as they are. -/
structure Enters (heap : Heap) (roots : List NodeId) (x : CallRun σ α κ) : Prop where
  heap_eq : ∀ r, x.result = some r → r.2.world.heap = heap
  nodup : (entered x.moments).Nodup
  below : ∀ m ∈ entered x.moments, ∃ a ∈ roots, ReflTransGen heap.Owns a m

section

variable {heap : Heap} {roots more : List NodeId} {x : CallRun σ α κ}

theorem enters_pure (outcome : Outcome) {s : State σ κ} (hs : s.world.heap = heap) :
    Enters heap roots (.pure (outcome, s) : CallRun σ α κ) where
  heap_eq r hr := by
    cases hr
    exact hs
  nodup := .nil
  below _ hm := by cases hm

theorem Enters.mark (h : Enters heap roots x) {m : Moment σ α κ} (hm : m.deed.entered? = none) :
    Enters heap roots (x.mark m) := by
  refine ⟨h.heap_eq, ?_, ?_⟩
  · rw [entered_mark_none hm]
    exact h.nodup
  · rw [entered_mark_none hm]
    exact h.below

/-- Two runs below nodes that are apart enter different nodes. -/
theorem Enters.bind {f : Outcome × State σ κ → CallRun σ α κ} (h : Enters heap roots x)
    (hapart : heap.Apart (roots ++ more))
    (hf : ∀ outcome s, s.world.heap = heap → Enters heap more (f (outcome, s))) :
    Enters heap (roots ++ more) (x.bind f) := by
  cases hr : x.result with
  | none =>
    refine ⟨fun r hbind => ?_, ?_, ?_⟩
    · rw [Run.result_bind, hr] at hbind
      cases hbind
    · rw [moments_bind_of_none hr]
      exact h.nodup
    · rw [moments_bind_of_none hr]
      intro m hm
      obtain ⟨a, ha, ham⟩ := h.below m hm
      exact ⟨a, List.mem_append_left _ ha, ham⟩
  | some r =>
    obtain ⟨outcome, s⟩ := r
    have hnext := hf outcome s (h.heap_eq _ hr)
    refine ⟨fun r hbind => ?_, ?_, ?_⟩
    · rw [Run.result_bind, hr] at hbind
      exact hnext.heap_eq r hbind
    · -- What is entered later is not below the first nodes.
      rw [moments_bind_of_result hr, entered_append]
      refine List.nodup_append.2 ⟨h.nodup, hnext.nodup, fun m hm m' hm' heq => ?_⟩
      subst heq
      obtain ⟨a, ha, ham⟩ := h.below m hm
      obtain ⟨b, hb, hbm⟩ := hnext.below m hm'
      exact (List.pairwise_append.1 hapart).2.2 a ha b hb m ham hbm
    · rw [moments_bind_of_result hr, entered_append]
      intro m hm
      rcases List.mem_append.1 hm with hm | hm
      · obtain ⟨a, ha, ham⟩ := h.below m hm
        exact ⟨a, List.mem_append_left _ ha, ham⟩
      · obtain ⟨b, hb, hbm⟩ := hnext.below m hm
        exact ⟨b, List.mem_append_right _ hb, hbm⟩

theorem Enters.thenOk {next : State σ κ → CallRun σ α κ} (h : Enters heap roots x)
    (hapart : heap.Apart (roots ++ more))
    (hnext : ∀ s, s.world.heap = heap → Enters heap more (next s)) :
    Enters heap (roots ++ more) (x.thenOk next) := by
  refine h.bind hapart fun outcome s hs => ?_
  cases outcome with
  | error e => exact enters_pure _ hs
  | ok _ => exact hnext s hs

/-- A node is entered before those below it. -/
theorem Enters.enter {id : NodeId} {type : String} {held : List Hold} {s : State σ κ}
    (h : Enters heap roots x) (howns : ∀ a ∈ roots, heap.Owns id a)
    (hcycle : ¬TransGen heap.Owns id id) :
    Enters heap [id] (x.mark ⟨.resolve id type, held, s⟩) := by
  refine ⟨h.heap_eq, ?_, ?_⟩
  · rw [entered_mark_resolve]
    refine List.nodup_cons.2 ⟨fun hmem => ?_, h.nodup⟩
    obtain ⟨a, ha, hid⟩ := h.below id hmem
    exact hcycle (.head' (howns a ha) hid)
  · rw [entered_mark_resolve]
    intro m hm
    rcases List.mem_cons.1 hm with rfl | hm
    · exact ⟨m, List.mem_singleton_self m, .refl⟩
    · obtain ⟨a, ha, ham⟩ := h.below m hm
      exact ⟨id, List.mem_singleton_self id, .head (howns a ha) ham⟩

end

/-! ## Step by step -/

section

variable (keeping : Keeping κ) (call : Call σ α κ) (setting : Walk.Setting σ α) (heap : Heap)
  (root : NodeId)

/-- Visits of nodes of the tree enter what is below them. -/
def VisitsEnter : Prop :=
  ∀ (held : List Hold) (id : NodeId) (s : State σ κ), ReflTransGen heap.Owns root id →
    s.world.heap = heap → Enters heap [id] (call setting held .visit id s)

variable {keeping call setting heap root} (hc : VisitsEnter call setting heap root)
  (held : List Hold)

include hc

/-- A child is refused, or entered along with nodes below it. -/
theorem walkChild_enters {type : String} {c : Candidate}
    (hchild : ReflTransGen heap.Owns root c.child) (rest : List Slot) (s : State σ κ)
    (hs : s.world.heap = heap) :
    Enters heap [c.child] (Side.walkChild ⟨keeping, call, setting, held⟩ type c rest s) := by
  unfold Side.walkChild walkChild
  refine Enters.mark ?_ rfl
  split
  · exact enters_pure _ hs
  · exact hc _ c.child s hchild hs

omit hc in
/-- Runs are chained, below different nodes. -/
theorem chains_enters (heap : Heap) :
    Chains (fun s : State σ κ => s.world.heap = heap) fun (cs : List Candidate) _
      (x : CallRun σ α κ) => heap.Apart (cs.map (·.child)) → Enters heap (cs.map (·.child)) x where
  done hs _ := enters_pure _ hs
  thenOk hx hf hapart := by
    rw [List.map_append] at hapart ⊢
    obtain ⟨hfirst, hrest, -⟩ := List.pairwise_append.1 hapart
    exact (hx hfirst).thenOk hapart fun t ht => hf t ht hrest

/-- Children in fields are apart, so no node is entered below two of them. -/
theorem walkFields_enters {id : NodeId} (hid : ReflTransGen heap.Owns root id) (type : String)
    (keys : List String) (s : State σ κ) (hs : s.world.heap = heap)
    (hapart : heap.Apart (keys.flatMap (heap.visitables id type))) :
    Enters heap (keys.flatMap (heap.visitables id type))
      (walkFields keeping call setting held id type keys s) := by
  have hfield : ∀ key (s : State σ κ), s.world.heap = heap →
      heap.Apart ((heap.candidates id type key).map (·.child)) →
      Enters heap ((heap.candidates id type key).map (·.child))
        (walkField keeping call setting held id type key s) := by
    intro key s hs hapart
    rw [walkField_eq, hs]
    rw [← Heap.slotCandidates_placesIn] at hapart ⊢
    refine ((chains_enters heap).walkSlots ⟨keeping, call, setting, held⟩ key _ _
      (fun c hmem rest t ht _ => ?_) hs hapart).mark rfl
    rw [Heap.slotCandidates_placesIn] at hmem
    have hchild := Heap.owns_of_mem_visitables (Heap.of_mem_candidates hmem).2.1
    exact walkChild_enters hc held (hid.tail hchild) rest t ht
  have hchildren : (keys.flatMap (heap.candidates id type)).map (·.child) =
      keys.flatMap (heap.visitables id type) := by
    rw [List.map_flatMap]
    simp only [Heap.map_child_candidates]
  rw [← hchildren] at hapart ⊢
  exact (chains_enters heap).walkFields ⟨keeping, call, setting, held⟩ (heap.candidates id type)
    hfield keys hs hapart

/-- A node is none of those below its children, since there is no cycle in a tree. -/
theorem expand_enters (htree : heap.Tree root) {id : NodeId}
    (hid : ReflTransGen heap.Owns root id)
    (hkeys : ∀ keys, setting.options.resolveKeys heap id (heap.effectiveType id) = .ok keys →
      keys.Nodup) (s : State σ κ) (hs : s.world.heap = heap) :
    Enters heap [id] (expand keeping call setting held id (heap.effectiveType id) s) := by
  obtain ⟨⟨heap', state⟩, book⟩ := s
  obtain rfl : heap = heap' := hs.symm
  have hcycle : ¬TransGen heap.Owns id id := htree.acyclic root List.mem_cons_self id hid
  obtain ⟨state', hannounce, -⟩ := announce_eq setting id (heap.effectiveType id) heap state
  cases hresolve : setting.options.resolveKeys heap id (heap.effectiveType id) with
  | error e =>
    rw [expand_of_error _ _ _ hresolve, hannounce]
    have hnone : Enters heap [] (.pure (.error e, ⟨⟨heap, state'⟩, book⟩) : CallRun σ α κ) :=
      enters_pure _ rfl
    exact hnone.enter (fun a ha => by cases ha) hcycle
  | ok keys =>
    rw [expand_of_ok _ _ _ hresolve, hannounce]
    have hapart := htree.apart_children hid (heap.effectiveType id) (hkeys keys hresolve)
    have hinside : Enters heap (keys.flatMap (heap.visitables id (heap.effectiveType id)) ++ [])
        (walkInside keeping call setting held id (heap.effectiveType id) keys
          ⟨⟨heap, state'⟩, book⟩) := by
      refine Enters.bind ?_ (by rwa [List.append_nil]) fun outcome u hu => ?_
      · exact walkFields_enters hc (.node id :: held) hid (heap.effectiveType id) keys _ rfl hapart
      · refine Enters.mark ?_ rfl
        exact enters_pure outcome hu
    -- The node itself comes on top: what is entered inside is below its children.
    refine hinside.enter (fun a ha => ?_) hcycle
    rw [List.append_nil] at ha
    obtain ⟨key, -, ha⟩ := List.mem_flatMap.1 ha
    exact Heap.owns_of_mem_visitables ha

end

/-! ## Walks without handlers -/

theorem run_enters {heap : Heap} {root : NodeId} (htree : heap.Tree root) (keeping : Keeping κ)
    (host : Host σ α) {options : Options} (hkeys : options.ListsOnce heap) :
    ∀ (limit : Nat), VisitsEnter (run keeping limit) ⟨host, options, ∅⟩ heap root
  | 0 => fun _ _ _ _ _ => ⟨fun _ h => (nomatch h), .nil, fun _ h => (nomatch h)⟩
  | limit + 1 => by
    intro held id s hid hs
    unfold run respond
    dsimp only
    rw [Record.get?_empty, hs]
    exact expand_enters (run_enters htree keeping host hkeys limit) held htree hid (hkeys id) s hs

/-- The nodes that a walk from a root without handlers enters, in order. -/
def enteredFrom (limit : Nat) (host : Host σ α) (options : Options) (root : NodeId)
    (world : World σ) : List NodeId :=
  entered (walk Walker.keeping limit ⟨host, options, ∅⟩ .visit (some root) world).moments

/-- A walk of a tree enters no node twice. -/
theorem nodup_enteredFrom {heap : Heap} {root : NodeId} (htree : heap.Tree root) (limit : Nat)
    (host : Host σ α) {options : Options} (hkeys : options.ListsOnce heap) (state : σ) :
    (enteredFrom limit host options root ⟨heap, state⟩).Nodup := by
  unfold enteredFrom walk
  rw [moments_inWorld]
  exact (run_enters htree Walker.keeping host hkeys limit [.node root] root _ .refl rfl).nodup

end Trace

end SyntaxWalk
