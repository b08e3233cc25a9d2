/-
Heaps as a whole: how many nodes they have, how they grow, and which handles keep nodes alive.
Identities are given out in order, so a heap that has grown has the old nodes under the old
identities. That a node is held twice makes no difference.
-/
import Mathlib.Data.List.Perm.Subperm
import Mathlib.Data.List.Range
import SyntaxWalk.Tree.Liveness

namespace SyntaxWalk.Heap

/-! ## Size -/

theorem fields_of_size_le {heap : Heap} {id : NodeId} (h : heap.size ≤ id) : heap.fields id = ∅ := by
  rw [fields_eq, Array.getElem?_eq_none h]
  rfl

/-- There are no more different nodes than the size says. -/
theorem length_le_size {heap : Heap} {nodes : List NodeId} (hnd : nodes.Nodup)
    (hlt : ∀ a ∈ nodes, a < heap.size) : nodes.length ≤ heap.size := by
  have hsub : nodes ⊆ List.range heap.size := fun a ha => List.mem_range.2 (hlt a ha)
  simpa using (List.subperm_of_subset hnd hsub).length_le

/-! ## Growth -/

/-- The second heap has all the nodes of the first one, with the same fields, and maybe more. -/
structure Extends (heap later : Heap) : Prop where
  size_le : heap.size ≤ later.size
  fields_eq : ∀ id < heap.size, later.fields id = heap.fields id

theorem Extends.refl (heap : Heap) : heap.Extends heap := ⟨Nat.le_refl _, fun _ _ => rfl⟩

theorem Extends.trans {a b c : Heap} (hab : a.Extends b) (hbc : b.Extends c) : a.Extends c :=
  ⟨Nat.le_trans hab.size_le hbc.size_le, fun id hid =>
    (hbc.fields_eq id (Nat.lt_of_lt_of_le hid hab.size_le)).trans (hab.fields_eq id hid)⟩

theorem extends_alloc (heap : Heap) (fields : Fields) : heap.Extends (heap.alloc fields).2 := by
  refine ⟨by rw [size_alloc]; omega, fun id hid => ?_⟩
  rw [fields_alloc, if_neg (Nat.ne_of_lt hid)]

/-! ## Handles -/

theorem getElem?_marked (i : NodeId) : ∀ (handles : List NodeId) (set : NodeSet),
    (handles.foldl (fun s id => s.setIfInBounds id true) set)[i]? =
      if i ∈ handles ∧ i < set.size then some true else set[i]?
  | [], set => by simp
  | id :: handles, set => by
    rw [List.foldl_cons, getElem?_marked i handles, Array.size_setIfInBounds,
      Array.getElem?_setIfInBounds]
    grind

/-- Which nodes are held depends on the handles as a set. -/
theorem supported_congr (heap : Heap) {a b : List NodeId} (h : ∀ id, id ∈ a ↔ id ∈ b)
    (set : NodeSet) : heap.supported a set = heap.supported b set := by
  have hmarked : ∀ set : NodeSet, a.foldl (fun s id => s.setIfInBounds id true) set =
      b.foldl (fun s id => s.setIfInBounds id true) set := by
    intro set
    refine Array.ext_getElem? fun i => ?_
    simp only [getElem?_marked, h i]
  unfold supported
  simp only [hmarked]

theorem prune_congr (heap : Heap) {a b : List NodeId} (h : ∀ id, id ∈ a ↔ id ∈ b) :
    ∀ (rounds : Nat) (set : NodeSet), heap.prune a rounds set = heap.prune b rounds set
  | 0, _ => rfl
  | rounds + 1, set => by
    unfold prune
    rw [heap.supported_congr h]
    simp only [prune_congr heap h rounds]

/-- Which nodes are alive depends on the handles as a set. -/
theorem isAlive_congr (heap : Heap) {a b : List NodeId} (h : ∀ id, id ∈ a ↔ id ∈ b) :
    heap.isAlive a = heap.isAlive b := by
  unfold isAlive living
  rw [heap.prune_congr h]

end SyntaxWalk.Heap
