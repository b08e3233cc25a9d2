/-
Counting owners. A node has a strong count: how many handles and owning edges lead to it. Copying a
handle, reading an edge out of a field and upgrading a weak handle raise the count of one node,
giving a handle or an edge up lowers it, and a node whose count falls to zero dies and gives up its
own edges, one after the other, so that more nodes may die. Weak handles and back-references have no
part in it.

Whatever is done, the counts are right: each is the number of handles and of edges of living nodes.
Counts are not enough to say which nodes are alive, for nodes in a cycle of owning edges count each
other; they are alive if they were once held from outside. What is kept besides is that no self-held
set of nodes has a dead node in it, so that the nodes with a count are the greatest such set.
-/
import Mathlib.Algebra.BigOperators.Group.Finset.Basic
import Mathlib.Algebra.BigOperators.Group.Multiset.Basic
import Mathlib.Algebra.Order.Group.Multiset
import Mathlib.Logic.Relation
import Mathlib.Tactic.Abel
import SyntaxWalk.Proofs.Living

namespace SyntaxWalk

/-! ## What fields own -/

/-- The nodes that a field owns. -/
def Heap.ownedAt (heap : Heap) (id : NodeId) (key : String) : List NodeId :=
  ((heap.get? id key).map Value.owned).getD []

theorem Heap.owns_of_get? {heap : Heap} {id child : NodeId} {key : String} {value : Value}
    (hget : heap.get? id key = some value) (h : child ∈ value.owned) : heap.Owns id child :=
  List.mem_flatMap.2 ⟨(key, value), Record.mem_of_find hget, h⟩

theorem Heap.owns_of_mem_ownedAt {heap : Heap} {id child : NodeId} {key : String}
    (h : child ∈ heap.ownedAt id key) : heap.Owns id child := by
  unfold Heap.ownedAt at h
  cases hget : heap.get? id key with
  | none => rw [hget] at h; cases h
  | some value =>
    rw [hget] at h
    exact owns_of_get? hget h

namespace Fields

/-- Setting a field adds the edges of its new value and takes away those of the old one. -/
theorem owned_insert (fields : Fields) (key : String) (value : Value) :
    (owned (fields.insert key value) : Multiset NodeId) +
        (((fields.get? key).map Value.owned).getD [] : List NodeId) =
      fields.owned + value.owned := by
  obtain ⟨entries, distinct⟩ := fields
  show (((Record.put key value entries).flatMap (·.2.owned) : List NodeId) : Multiset NodeId) +
      (((Record.find key entries).map Value.owned).getD [] : List NodeId) =
    (entries.flatMap (·.2.owned) : List NodeId) + value.owned
  clear distinct
  induction entries with
  | nil => simp [Record.put, Record.find]
  | cons e rest ih =>
    simp only [Record.put, Record.find]
    split
    · simp only [List.flatMap_cons, ← Multiset.coe_add, Option.map_some, Option.getD_some]
      abel
    · simp only [List.flatMap_cons, ← Multiset.coe_add, add_assoc]
      rw [ih]

/-- Removing a field takes its edges away. -/
theorem owned_erase (fields : Fields) (key : String) :
    (owned (fields.erase key) : Multiset NodeId) +
        (((fields.get? key).map Value.owned).getD [] : List NodeId) = fields.owned := by
  obtain ⟨entries, distinct⟩ := fields
  show (((Record.drop key entries).flatMap (·.2.owned) : List NodeId) : Multiset NodeId) +
      (((Record.find key entries).map Value.owned).getD [] : List NodeId) =
    (entries.flatMap (·.2.owned) : List NodeId)
  clear distinct
  induction entries with
  | nil => simp [Record.drop, Record.find]
  | cons e rest ih =>
    simp only [Record.drop, Record.find]
    split
    · simp only [List.flatMap_cons, ← Multiset.coe_add, Option.map_some, Option.getD_some]
      abel
    · simp only [List.flatMap_cons, ← Multiset.coe_add, add_assoc]
      rw [ih]

end Fields

/-! ## The counting machine -/

/-- Nodes with their counts. -/
structure Store where
  heap : Heap
  /-- The nodes that handles outside the heap lead to, each as often as there are handles. -/
  handles : Multiset NodeId
  /-- Each node as often as its strong count says; the nodes that do not occur are dead. -/
  strong : Multiset NodeId

/-- The counts when handles or edges have been given up, one after the other. A node that loses its
last one dies, and its edges are given up before the rest. -/
def release (heap : Heap) (pending : List NodeId) (strong : Multiset NodeId) : Multiset NodeId :=
  match pending with
  | [] => strong
  | id :: rest =>
    if id ∈ strong then
      if id ∈ strong.erase id then release heap rest (strong.erase id)
      else release heap ((heap.fields id).owned ++ rest) (strong.erase id)
    else release heap rest strong
termination_by (strong.card, pending.length)
decreasing_by
  · exact .left _ _ (Multiset.card_erase_lt_of_mem ‹_›)
  · exact .left _ _ (Multiset.card_erase_lt_of_mem ‹_›)
  · exact .right _ (Nat.lt_succ_self _)

namespace Store

/-- The store without nodes. -/
def empty : Store := ⟨∅, 0, 0⟩

/-- A further handle to a node. -/
def share (s : Store) (id : NodeId) : Store := ⟨s.heap, id ::ₘ s.handles, id ::ₘ s.strong⟩

/-- What can be done with nodes, and what it does to the counts. -/
inductive Step : Store → Store → Prop where
  /-- A node without fields is made. -/
  | create (s : Store) :
    Step s ⟨(s.heap.alloc ∅).2, s.heap.size ::ₘ s.handles, s.heap.size ::ₘ s.strong⟩
  /-- A handle is copied. -/
  | clone (s : Store) {id : NodeId} (h : id ∈ s.handles) : Step s (s.share id)
  /-- An owning edge of a node that is held is copied as a handle. -/
  | fetch (s : Store) {id child : NodeId} (h : id ∈ s.handles) (hown : s.heap.Owns id child) :
    Step s (s.share child)
  /-- A weak handle or a back-reference is made a handle, which its target must have a count for. -/
  | upgrade (s : Store) {id : NodeId} (h : 0 < s.strong.count id) : Step s (s.share id)
  /-- A handle is given up. -/
  | drop (s : Store) {id : NodeId} (h : id ∈ s.handles) :
    Step s ⟨s.heap, s.handles.erase id, release s.heap [id] s.strong⟩
  /-- A field is set. Handles become the edges of the value, and the edges of the old value are
  given up. -/
  | insert (s : Store) {id : NodeId} (key : String) {value : Value} (h : id ∈ s.handles)
    (hvalue : (value.owned : Multiset NodeId) ≤ s.handles) :
    Step s ⟨s.heap.insert id key value, s.handles - value.owned,
      release (s.heap.insert id key value) (s.heap.ownedAt id key) s.strong⟩
  /-- A field is taken away. The edges of its value become handles. -/
  | remove (s : Store) {id : NodeId} (key : String) (h : id ∈ s.handles) :
    Step s ⟨s.heap.erase id key, s.handles + s.heap.ownedAt id key, s.strong⟩

/-- Any number of steps. -/
abbrev Steps : Store → Store → Prop := Relation.ReflTransGen Step

end Store

/-! ## Right counts -/

/-- The owning edges of the nodes with a count, by the nodes to which they lead. -/
def edges (heap : Heap) (strong : Multiset NodeId) : Multiset NodeId :=
  ∑ owner ∈ strong.toFinset, ((heap.fields owner).owned : Multiset NodeId)

/-- The edges of living nodes lead to what living nodes own. -/
theorem mem_edges {heap : Heap} {strong : Multiset NodeId} {id : NodeId} :
    id ∈ edges heap strong ↔ ∃ owner ∈ strong, heap.Owns owner id := by
  simp [edges, Multiset.mem_sum, Heap.Owns]

/-- Where the count of a node comes from. -/
theorem mem_iff_of_counted {heap : Heap} {handles pending strong : Multiset NodeId} {id : NodeId}
    (h : strong = handles + pending + edges heap strong) :
    id ∈ strong ↔ id ∈ handles ∨ id ∈ pending ∨ ∃ owner ∈ strong, heap.Owns owner id := by
  have hsum : id ∈ handles + pending + edges heap strong ↔
      id ∈ handles ∨ id ∈ pending ∨ ∃ owner ∈ strong, heap.Owns owner id := by
    rw [Multiset.mem_add, Multiset.mem_add, mem_edges, or_assoc]
  rwa [← h] at hsum

theorem edges_congr {heap later : Heap} {strong : Multiset NodeId}
    (h : ∀ id ∈ strong, later.fields id = heap.fields id) :
    edges later strong = edges heap strong :=
  Finset.sum_congr rfl fun id hid => by rw [h id (Multiset.mem_toFinset.1 hid)]

theorem edges_cons_of_mem (heap : Heap) {strong : Multiset NodeId} {id : NodeId}
    (h : id ∈ strong) : edges heap (id ::ₘ strong) = edges heap strong := by
  unfold edges
  rw [Multiset.toFinset_cons, Finset.insert_eq_of_mem (Multiset.mem_toFinset.2 h)]

/-- A node that comes to life brings its edges along. -/
theorem edges_cons_of_not_mem (heap : Heap) {strong : Multiset NodeId} {id : NodeId}
    (h : id ∉ strong) :
    edges heap (id ::ₘ strong) = (heap.fields id).owned + edges heap strong := by
  unfold edges
  rw [Multiset.toFinset_cons, Finset.sum_insert (mt Multiset.mem_toFinset.1 h)]

/-- When the fields of a node with a count change, the edges change as the fields do. -/
theorem edges_update {heap : Heap} {strong : Multiset NodeId} {id : NodeId}
    {change : Fields → Fields} {gone added : Multiset NodeId} (hid : id ∈ strong)
    (hlt : id < heap.size)
    (h : ((change (heap.fields id)).owned : Multiset NodeId) + gone =
      (heap.fields id).owned + added) :
    edges (heap.update id change) strong + gone = edges heap strong + added := by
  have hmem := Multiset.mem_toFinset.2 hid
  have hothers : ∑ owner ∈ strong.toFinset.erase id,
        (((heap.update id change).fields owner).owned : Multiset NodeId) =
      ∑ owner ∈ strong.toFinset.erase id, ((heap.fields owner).owned : Multiset NodeId) := by
    refine Finset.sum_congr rfl fun owner ho => ?_
    rw [Heap.fields_update, if_neg fun heq => (Finset.mem_erase.1 ho).1 heq.1]
  unfold edges
  rw [← Finset.add_sum_erase _ _ hmem, ← Finset.add_sum_erase _ _ hmem, hothers,
    Heap.fields_update, if_pos ⟨rfl, hlt⟩, add_right_comm, h, add_right_comm]

/-- The counts are right while some handles and edges are still to be given up. -/
structure Balanced (heap : Heap) (handles pending strong : Multiset NodeId) : Prop where
  /-- What is counted are the handles and the edges of living nodes. -/
  counted : strong = handles + pending + edges heap strong
  /-- Only nodes of the heap are counted. -/
  inside : ∀ id ∈ strong, id < heap.size
  /-- No self-held set has a dead node in it. -/
  greatest : ∀ set, heap.SelfHeld handles set → ∀ id ∈ set, id ∈ strong

namespace Balanced

variable {heap later : Heap} {handles pending strong : Multiset NodeId} {id : NodeId}

theorem mem_of_handle (h : Balanced heap handles pending strong) (hid : id ∈ handles) :
    id ∈ strong :=
  (mem_iff_of_counted h.counted).2 (.inl hid)

theorem mem_of_pending (h : Balanced heap handles pending strong) (hid : id ∈ pending) :
    id ∈ strong :=
  (mem_iff_of_counted h.counted).2 (.inr (.inl hid))

theorem mem_of_owns (h : Balanced heap handles pending strong) {owner : NodeId}
    (howner : owner ∈ strong) (hown : heap.Owns owner id) : id ∈ strong :=
  (mem_iff_of_counted h.counted).2 (.inr (.inr ⟨owner, howner, hown⟩))

/-- When living nodes or handles change and no count is lost, there is again no dead node in a
self-held set: the dead nodes of such a set would have held each other before. -/
theorem transfer {handles' pending' strong' : Multiset NodeId}
    (h : Balanced heap handles pending strong)
    (hcounted : strong' = handles' + pending' + edges later strong')
    (hinside : ∀ id ∈ strong', id < later.size) (hmono : ∀ id ∈ strong, id ∈ strong')
    (hdead : ∀ id < later.size, id ∉ strong' →
      id < heap.size ∧ later.fields id = heap.fields id) :
    Balanced later handles' pending' strong' := by
  refine ⟨hcounted, hinside, fun set hset id hid => ?_⟩
  by_contra hgone
  have hheld : heap.SelfHeld handles {n | n ∈ set ∧ n ∉ strong'} := by
    rintro n ⟨hn, hdn⟩
    obtain ⟨hlt, hholder⟩ := hset n hn
    refine ⟨(hdead n hlt hdn).1, .inr ?_⟩
    rw [mem_iff_of_counted hcounted, not_or, not_or] at hdn
    rcases hholder with hhandle | ⟨owner, ho, hown⟩
    · exact (hdn.1 hhandle).elim
    · have hdo : owner ∉ strong' := fun halive => hdn.2.2 ⟨owner, halive, hown⟩
      refine ⟨owner, ⟨ho, hdo⟩, ?_⟩
      unfold Heap.Owns at hown
      rwa [(hdead owner (hset owner ho).1 hdo).2] at hown
  exact hgone (hmono id (h.greatest _ hheld id ⟨hid, hgone⟩))

/-- A node that has a count may get another handle. -/
theorem share (h : Balanced heap handles 0 strong) (hid : id ∈ strong) :
    Balanced heap (id ::ₘ handles) 0 (id ::ₘ strong) := by
  refine h.transfer ?_ (fun n hn => ?_) (fun n hn => Multiset.mem_cons_of_mem hn)
    fun n hlt _ => ⟨hlt, rfl⟩
  · rw [edges_cons_of_mem heap hid, Multiset.cons_add, Multiset.cons_add, ← h.counted]
  · rcases Multiset.mem_cons.1 hn with rfl | hn
    · exact h.inside _ hid
    · exact h.inside n hn

/-- A new node has one owner, the handle to it, and owns nothing. -/
theorem alloc (h : Balanced heap handles 0 strong) :
    Balanced (heap.alloc ∅).2 (heap.size ::ₘ handles) 0 (heap.size ::ₘ strong) := by
  have hnew : heap.size ∉ strong := fun hmem => Nat.lt_irrefl _ (h.inside _ hmem)
  have hold : ∀ id ∈ strong, (heap.alloc ∅).2.fields id = heap.fields id := fun id hid =>
    (Heap.extends_alloc heap ∅).fields_eq id (h.inside id hid)
  have hnone : ((heap.alloc ∅).2.fields heap.size).owned = [] := by
    rw [Heap.fields_alloc, if_pos rfl]
    rfl
  refine h.transfer ?_ (fun n hn => ?_) (fun n hn => Multiset.mem_cons_of_mem hn)
    fun n hlt hn => ?_
  · rw [edges_cons_of_not_mem _ hnew, hnone, edges_congr hold, Multiset.coe_nil, zero_add,
      Multiset.cons_add, Multiset.cons_add, ← h.counted]
  · rw [Heap.size_alloc]
    rcases Multiset.mem_cons.1 hn with rfl | hn
    · exact Nat.lt_succ_self _
    · exact Nat.lt_succ_of_lt (h.inside n hn)
  · have hne : n ≠ heap.size := fun heq => hn (heq ▸ Multiset.mem_cons_self _ _)
    rw [Heap.size_alloc] at hlt
    exact ⟨by omega, by rw [Heap.fields_alloc, if_neg hne]⟩

/-- When the fields of a living node change, the edges that it loses have to be accounted for, and
those that it gains have to come from somewhere. -/
theorem update {handles' pending' gone added : Multiset NodeId} {change : Fields → Fields}
    (h : Balanced heap handles 0 strong) (hid : id ∈ strong)
    (howned : ((change (heap.fields id)).owned : Multiset NodeId) + gone =
      (heap.fields id).owned + added)
    (hmoved : handles' + pending' + added = handles + gone) :
    Balanced (heap.update id change) handles' pending' strong := by
  have hedges : edges (heap.update id change) strong + gone = edges heap strong + added :=
    edges_update hid (h.inside id hid) howned
  refine h.transfer ?_ (fun n hn => ?_) (fun n hn => hn) fun n hlt hn => ?_
  · have hsum : strong + (gone + added) =
        handles' + pending' + edges (heap.update id change) strong + (gone + added) := by
      calc strong + (gone + added)
          = handles + 0 + edges heap strong + (gone + added) := by rw [← h.counted]
        _ = (handles + gone) + (edges heap strong + added) := by abel
        _ = (handles' + pending' + added) + (edges (heap.update id change) strong + gone) := by
            rw [hmoved, hedges]
        _ = _ := by abel
    exact add_right_cancel hsum
  · rw [Heap.size_update]
    exact h.inside n hn
  · rw [Heap.size_update] at hlt
    have hne : n ≠ id := fun heq => hn (heq ▸ hid)
    exact ⟨hlt, by rw [Heap.fields_update, if_neg fun heq => hne heq.1]⟩

/-- What is left to be counted when one of the pending edges is given up. -/
theorem erase_eq {rest : List NodeId}
    (h : Balanced heap handles (id :: rest : List NodeId) strong) :
    strong.erase id = handles + rest + edges heap strong := by
  have hid : id ∈ strong := h.mem_of_pending (Multiset.mem_coe.2 List.mem_cons_self)
  refine (Multiset.cons_inj_right id).1 ?_
  rw [Multiset.cons_erase hid, ← Multiset.cons_add, ← Multiset.add_cons, Multiset.cons_coe]
  exact h.counted

/-- A node that keeps a count is not lost, and others lose nothing. -/
theorem release_shared {rest : List NodeId}
    (h : Balanced heap handles (id :: rest : List NodeId) strong) (hleft : id ∈ strong.erase id) :
    Balanced heap handles rest (strong.erase id) := by
  have hid : id ∈ strong := Multiset.mem_of_mem_erase hleft
  refine ⟨?_, fun n hn => h.inside n (Multiset.mem_of_mem_erase hn), fun set hset n hn => ?_⟩
  · have hedges := edges_cons_of_mem heap hleft
    rw [Multiset.cons_erase hid] at hedges
    rw [← hedges]
    exact h.erase_eq
  · by_cases hne : n = id
    · exact hne ▸ hleft
    · exact (Multiset.mem_erase_of_ne hne).2 (h.greatest set hset n hn)

/-- A node that loses its last handle or edge dies. It is in no self-held set, since nothing else
held it, and its own edges are to be given up now. -/
theorem release_last {rest : List NodeId}
    (h : Balanced heap handles (id :: rest : List NodeId) strong) (hlast : id ∉ strong.erase id) :
    Balanced heap handles ((heap.fields id).owned ++ rest : List NodeId) (strong.erase id) := by
  have hid : id ∈ strong := h.mem_of_pending (Multiset.mem_coe.2 List.mem_cons_self)
  have hleft := h.erase_eq
  refine ⟨?_, fun n hn => h.inside n (Multiset.mem_of_mem_erase hn), fun set hset n hn => ?_⟩
  · have hedges := edges_cons_of_not_mem heap hlast
    rw [Multiset.cons_erase hid] at hedges
    rw [hedges] at hleft
    rw [← Multiset.coe_add]
    refine hleft.trans ?_
    abel
  · have hne : n ≠ id := by
      rintro rfl
      refine hlast ?_
      rw [hleft]
      rcases (hset n hn).2 with hhandle | ⟨owner, ho, hown⟩
      · exact Multiset.mem_add.2 (.inl (Multiset.mem_add.2 (.inl hhandle)))
      · exact Multiset.mem_add.2 (.inr (mem_edges.2 ⟨owner, h.greatest set hset owner ho, hown⟩))
    exact (Multiset.mem_erase_of_ne hne).2 (h.greatest set hset n hn)

/-- Giving up handles and edges keeps the counts right, however many nodes die of it. -/
theorem release {pending : List NodeId} {strong : Multiset NodeId} :
    Balanced heap handles pending strong →
      Balanced heap handles 0 (SyntaxWalk.release heap pending strong) := by
  fun_induction SyntaxWalk.release heap pending strong with
  | case1 strong => exact fun h => h
  | case2 strong id rest hid hleft ih => exact fun h => ih (h.release_shared hleft)
  | case3 strong id rest hid hlast ih => exact fun h => ih (h.release_last hlast)
  | case4 strong id rest hid ih =>
    exact fun h => (hid (h.mem_of_pending (Multiset.mem_coe.2 List.mem_cons_self))).elim

/-- When nothing is pending, the nodes with a count are those that a handle holds or a node with a
count owns. -/
theorem mem_iff (h : Balanced heap handles 0 strong) :
    id ∈ strong ↔ id ∈ handles ∨ ∃ owner ∈ strong, heap.Owns owner id := by
  rw [mem_iff_of_counted h.counted]
  simp

/-- The living nodes are those with a count. -/
theorem isAlive_iff {handles : List NodeId} (h : Balanced heap handles 0 strong) :
    heap.isAlive handles id = true ↔ id ∈ strong := by
  rw [Heap.isAlive_iff]
  constructor
  · rintro ⟨set, hset, hid⟩
    exact h.greatest set hset id hid
  · intro hid
    exact ⟨{n | n ∈ strong}, fun n hn => ⟨h.inside n hn, h.mem_iff.1 hn⟩, hid⟩

end Balanced

namespace Store

variable {s t : Store} {id : NodeId}

/-- The counts of a store are right. -/
def Sound (s : Store) : Prop := Balanced s.heap s.handles 0 s.strong

/-- A step keeps the counts right. -/
theorem Step.sound (h : Step s t) (hs : s.Sound) : t.Sound := by
  cases h with
  | create => exact hs.alloc
  | clone hid => exact hs.share (hs.mem_of_handle hid)
  | fetch hid hown => exact hs.share (hs.mem_of_owns (hs.mem_of_handle hid) hown)
  | upgrade hid => exact hs.share (Multiset.count_pos.1 hid)
  | @drop id hid =>
    refine Balanced.release ⟨?_, hs.inside, fun set hset => ?_⟩
    · have hhandles : s.handles.erase id + ([id] : List NodeId) = s.handles + 0 := by
        rw [Multiset.coe_singleton, add_comm, Multiset.singleton_add, Multiset.cons_erase hid,
          add_zero]
      rw [hhandles]
      exact hs.counted
    · exact hs.greatest set fun n hn =>
        (hset n hn).imp_right (Or.imp_left Multiset.mem_of_mem_erase)
  | @insert id key value hid hvalue =>
    refine Balanced.release (hs.update (hs.mem_of_handle hid)
      ((s.heap.fields id).owned_insert key value) ?_)
    rw [add_right_comm, Multiset.sub_add_cancel hvalue]
    rfl
  | @remove id key hid =>
    have howned := (s.heap.fields id).owned_erase key
    rw [← add_zero ((s.heap.fields id).owned : Multiset NodeId)] at howned
    exact hs.update (hs.mem_of_handle hid) howned ((add_zero _).trans (add_zero _))

/-- Counts stay right along any steps. -/
theorem Steps.sound (h : Steps s t) (hs : s.Sound) : t.Sound := by
  induction h with
  | refl => exact hs
  | tail _ hstep ih => exact hstep.sound ih

end Store

end SyntaxWalk
