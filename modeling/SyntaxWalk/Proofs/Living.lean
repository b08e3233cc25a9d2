/-
Which nodes are alive, said without rounds. A set of nodes is self-held if each of its nodes is held
by a handle or by an owning edge of a node of the set. The living nodes are the greatest self-held
set: taking away the nodes that nobody holds takes none away from a self-held set, and when nothing
more is taken away, what is left is self-held.
-/
import Mathlib.Data.Finset.Card
import Mathlib.Data.Finset.Range
import Mathlib.Data.Multiset.Basic
import Mathlib.Data.Set.Basic
import SyntaxWalk.Proofs.Heaps
import SyntaxWalk.Proofs.Unfolding

namespace SyntaxWalk.Heap

/-- Each node of the set is in the heap, and a handle holds it or a node of the set owns it. -/
def SelfHeld (heap : Heap) (handles : Multiset NodeId) (set : Set NodeId) : Prop :=
  ∀ id ∈ set, id < heap.size ∧ (id ∈ handles ∨ ∃ owner ∈ set, heap.Owns owner id)

/-! ## Sets of marks -/

/-- The nodes of a set of marks. -/
def NodeSet.nodes (set : NodeSet) : Set NodeId := fun id => set[id]? = some true

theorem NodeSet.mem_nodes {set : NodeSet} {id : NodeId} :
    id ∈ set.nodes ↔ set[id]? = some true := Iff.rfl

theorem NodeSet.mem_nodes_iff_getD {set : NodeSet} {id : NodeId} :
    id ∈ set.nodes ↔ set.getD id false = true := by
  rw [mem_nodes, Array.getD_eq_getD_getElem?]
  cases set[id]? <;> simp

theorem NodeSet.lt_size {set : NodeSet} {id : NodeId} (h : id ∈ set.nodes) : id < set.size :=
  (Array.getElem?_eq_some_iff.1 h).1

section

variable (heap : Heap) (handles : List NodeId) {set : NodeSet} {id : NodeId}

/-- The edges of the nodes of a set are marked like handles. -/
theorem supported_eq_foldl (set : NodeSet) :
    heap.supported handles set =
      (handles ++ (List.range heap.size).flatMap fun owner =>
          if set.getD owner false then (heap.fields owner).owned else []).foldl
        (fun s id => s.setIfInBounds id true) (Array.replicate heap.size false) := by
  have hbody : (fun (s : NodeSet) owner => if set.getD owner false then
        (heap.fields owner).owned.foldl (fun s child => s.setIfInBounds child true) s else s) =
      fun s owner => (if set.getD owner false then (heap.fields owner).owned else []).foldl
        (fun s id => s.setIfInBounds id true) s := by
    funext s owner
    split <;> rfl
  rw [List.foldl_append, List.foldl_flatMap, ← hbody]
  rfl

theorem size_supported (set : NodeSet) : (heap.supported handles set).size = heap.size := by
  have hmark : ∀ (ids : List NodeId) (s : NodeSet),
      (ids.foldl (fun s id => s.setIfInBounds id true) s).size = s.size := by
    intro ids
    induction ids with
    | nil => exact fun _ => rfl
    | cons id ids ih => exact fun s => (ih _).trans (Array.size_setIfInBounds ..)
  rw [supported_eq_foldl, hmark, Array.size_replicate]

/-- A node is supported if it is a handle, or owned by a node of the set. -/
theorem mem_supported (hsize : set.size = heap.size) :
    id ∈ (heap.supported handles set).nodes ↔
      id < heap.size ∧ (id ∈ handles ∨ ∃ owner ∈ set.nodes, heap.Owns owner id) := by
  have hedge : (id ∈ (List.range heap.size).flatMap fun owner =>
        if set.getD owner false then (heap.fields owner).owned else []) ↔
      ∃ owner ∈ set.nodes, heap.Owns owner id := by
    rw [List.mem_flatMap]
    refine exists_congr fun owner => ?_
    rw [List.mem_range, NodeSet.mem_nodes_iff_getD]
    by_cases h : set.getD owner false = true
    · have howner : owner < heap.size := hsize ▸ NodeSet.lt_size (NodeSet.mem_nodes_iff_getD.2 h)
      simp [h, howner, Owns]
    · simp [h]
  rw [NodeSet.mem_nodes, supported_eq_foldl, getElem?_marked]
  simp only [List.mem_append, hedge, Array.size_replicate, Array.getElem?_replicate]
  grind

/-- One round keeps the nodes of the set that are held. -/
def sift (set : NodeSet) : NodeSet := set.zipWith (· && ·) (heap.supported handles set)

theorem size_sift (hsize : set.size = heap.size) : (heap.sift handles set).size = heap.size := by
  rw [sift, Array.size_zipWith, size_supported, hsize, Nat.min_self]

theorem mem_sift : id ∈ (heap.sift handles set).nodes ↔
    id ∈ set.nodes ∧ id ∈ (heap.supported handles set).nodes := by
  simp only [NodeSet.mem_nodes, sift, Array.getElem?_zipWith]
  rcases set[id]? with _ | a <;> rcases (heap.supported handles set)[id]? with _ | b <;> simp

/-! ## Rounds -/

/-- A round takes nothing away from a self-held set. -/
theorem SelfHeld.subset_sift {nodes : Set NodeId} (h : heap.SelfHeld handles nodes)
    (hsize : set.size = heap.size) (hsub : nodes ⊆ set.nodes) :
    nodes ⊆ (heap.sift handles set).nodes := by
  intro id hid
  obtain ⟨hlt, hheld⟩ := h id hid
  refine (heap.mem_sift handles).2 ⟨hsub hid, (heap.mem_supported handles hsize).2 ⟨hlt, ?_⟩⟩
  exact hheld.imp Multiset.mem_coe.1 fun ⟨owner, ho, hown⟩ => ⟨owner, hsub ho, hown⟩

/-- What a round leaves as it was is self-held. -/
theorem selfHeld_of_sift_eq (hsize : set.size = heap.size) (h : heap.sift handles set = set) :
    heap.SelfHeld handles set.nodes := by
  intro id hid
  rw [← h, mem_sift, mem_supported heap handles hsize] at hid
  exact hid.2.imp_right (Or.imp_left Multiset.mem_coe.2)

/-- The number of nodes in a set of marks. -/
def NodeSet.count (set : NodeSet) : Nat :=
  ((Finset.range set.size).filter fun id => set[id]? = some true).card

/-- A round that changes the set takes a node away. -/
theorem count_sift_lt (hsize : set.size = heap.size) (h : heap.sift handles set ≠ set) :
    NodeSet.count (heap.sift handles set) < NodeSet.count set := by
  have hsub : ∀ id, id ∈ (heap.sift handles set).nodes → id ∈ set.nodes := fun id hid =>
    ((heap.mem_sift handles).1 hid).1
  obtain ⟨id, hid, hgone⟩ : ∃ id, id ∈ set.nodes ∧ id ∉ (heap.sift handles set).nodes := by
    by_contra hall
    push Not at hall
    refine h (Array.ext (by rw [size_sift heap handles hsize, hsize]) fun i hi hi' => ?_)
    have hiff : i ∈ (heap.sift handles set).nodes ↔ i ∈ set.nodes := ⟨hsub i, hall i⟩
    rw [NodeSet.mem_nodes, NodeSet.mem_nodes, Array.getElem?_eq_getElem hi,
      Array.getElem?_eq_getElem hi', Option.some_inj, Option.some_inj] at hiff
    exact Bool.eq_iff_iff.2 hiff
  unfold NodeSet.count
  rw [size_sift heap handles hsize, hsize]
  refine Finset.card_lt_card (Finset.ssubset_iff_of_subset ?_ |>.2 ⟨id, ?_, ?_⟩)
  · intro i hi
    rw [Finset.mem_filter] at hi ⊢
    exact ⟨hi.1, hsub i hi.2⟩
  · refine Finset.mem_filter.2 ⟨Finset.mem_range.2 ?_, hid⟩
    exact hsize ▸ NodeSet.lt_size hid
  · exact fun hi => hgone (Finset.mem_filter.1 hi).2

/-- What is self-held is never taken away, in any number of rounds. -/
theorem SelfHeld.subset_prune {nodes : Set NodeId} (h : heap.SelfHeld handles nodes) :
    ∀ (rounds : Nat) (set : NodeSet), set.size = heap.size → nodes ⊆ set.nodes →
      nodes ⊆ (heap.prune handles rounds set).nodes
  | 0, _, _, hsub => hsub
  | rounds + 1, set, hsize, hsub => by
    unfold prune
    show nodes ⊆ NodeSet.nodes (if heap.sift handles set = set then set
      else heap.prune handles rounds (heap.sift handles set))
    split
    · exact hsub
    · exact subset_prune h rounds _ (heap.size_sift handles hsize)
        (h.subset_sift heap handles hsize hsub)

/-- With as many rounds as there are nodes, the last round changes nothing. -/
theorem selfHeld_prune : ∀ (rounds : Nat) (set : NodeSet), set.size = heap.size →
    NodeSet.count set ≤ rounds → heap.SelfHeld handles (heap.prune handles rounds set).nodes
  | 0, set, hsize, hcount => by
    intro id hid
    have hempty := Finset.card_eq_zero.1 (Nat.le_zero.1 hcount)
    have hmem : id ∈ (Finset.range set.size).filter fun id => set[id]? = some true :=
      Finset.mem_filter.2 ⟨Finset.mem_range.2 (NodeSet.lt_size hid), hid⟩
    rw [hempty] at hmem
    cases hmem
  | rounds + 1, set, hsize, hcount => by
    unfold prune
    show heap.SelfHeld handles (NodeSet.nodes (if heap.sift handles set = set then set
      else heap.prune handles rounds (heap.sift handles set)))
    split
    · rename_i h
      exact heap.selfHeld_of_sift_eq handles hsize h
    · rename_i h
      have hlt := heap.count_sift_lt handles hsize h
      exact selfHeld_prune rounds _ (heap.size_sift handles hsize) (by omega)

end

/-! ## Living nodes -/

/-- The living nodes are the greatest self-held set. -/
theorem isAlive_iff (heap : Heap) (handles : List NodeId) (id : NodeId) :
    heap.isAlive handles id = true ↔ ∃ set, heap.SelfHeld handles set ∧ id ∈ set := by
  have hsize : (Array.replicate heap.size true).size = heap.size := Array.size_replicate
  unfold isAlive living
  rw [← NodeSet.mem_nodes_iff_getD]
  constructor
  · intro h
    refine ⟨_, heap.selfHeld_prune handles _ _ hsize ?_, h⟩
    exact (Finset.card_filter_le _ _).trans (by rw [Finset.card_range, hsize])
  · rintro ⟨set, hset, hid⟩
    refine hset.subset_prune heap handles _ _ hsize (fun n hn => ?_) hid
    rw [NodeSet.mem_nodes, Array.getElem?_replicate, if_pos (hset n hn).1]

end SyntaxWalk.Heap
