/-
The children of a node: the nodes that a walk visits when it comes to a field. They are sorted when
the field is read, and the node owns them.
-/
import SyntaxWalk.Options
import SyntaxWalk.Proofs.Unfolding
import SyntaxWalk.Tree.Child

namespace SyntaxWalk

/-! ## The nodes to visit in a field -/

namespace Heap

/-- The node that a walk visits when it comes to a value: one with a type, and in a list of
properties also one without. -/
def visitable? (heap : Heap) (properties : Bool) : Value → Option NodeId
  | .node id => if (heap.fields id).isTyped || properties then some id else none
  | _ => none

/-- The nodes that a walk visits when it comes to a field with the given value, which may be a list
of properties. -/
def visitablesIn (heap : Heap) (properties : Bool) : Value → List NodeId
  | .array items => items.filterMap (heap.visitable? properties)
  | value => (heap.visitable? false value).toList

/-- The nodes that a walk visits when it comes to a field of a node, handled under the
given type. -/
def visitables (heap : Heap) (id : NodeId) (type key : String) : List NodeId :=
  (heap.get? id key).elim [] (heap.visitablesIn (isPropertyList type key))

/-- The nodes that a walk visits when it comes to fields of a node, each with the field that holds
it. -/
def childrenIn (heap : Heap) (id : NodeId) (type : String) (keys : List String) :
    List (String × NodeId) :=
  keys.flatMap fun key => (heap.visitables id type key).map (key, ·)

/-- How a place is sorted tells whether the value in it is visited. -/
theorem visitable?_slot (heap : Heap) (properties : Bool) (value : Value) :
    (Slot.of heap value).visitable? properties = heap.visitable? properties value := by
  cases value with
  | node id =>
    cases ht : (heap.fields id).isTyped <;> simp [Slot.of, Slot.visitable?, visitable?, ht]
  | _ => rfl

end Heap

/-- A node to visit: the field that holds it, and how its place is sorted. -/
structure Candidate where
  key : String
  child : NodeId
  slot : Slot

/-- The nodes to visit in a field of a node that is handled under the given type. -/
def Heap.candidates (heap : Heap) (id : NodeId) (type key : String) : List Candidate :=
  (heap.visitables id type key).map fun child => ⟨key, child, Slot.of heap (.node child)⟩

/-- A node to visit is in its field, and in its place. -/
theorem Heap.of_mem_candidates {heap : Heap} {id : NodeId} {type key : String} {c : Candidate}
    (h : c ∈ heap.candidates id type key) :
    c.key = key ∧ c.child ∈ heap.visitables id type key ∧ c.slot.node? = some c.child := by
  obtain ⟨child, hchild, rfl⟩ := List.mem_map.1 h
  refine ⟨rfl, hchild, ?_⟩
  simp only [Slot.of]
  split <;> rfl

theorem Heap.map_child_candidates (heap : Heap) (id : NodeId) (type key : String) :
    (heap.candidates id type key).map (·.child) = heap.visitables id type key := by
  unfold candidates
  rw [List.map_map]
  exact List.map_id _

/-- The nodes to visit in places of a field. -/
def slotCandidates (key : String) (properties : Bool) (slots : List Slot) : List Candidate :=
  slots.filterMap fun slot => (slot.visitable? properties).map (⟨key, ·, slot⟩)

theorem slotCandidates_cons_none {slot : Slot} {properties : Bool}
    (h : slot.visitable? properties = none) (key : String) (rest : List Slot) :
    slotCandidates key properties (slot :: rest) = slotCandidates key properties rest :=
  List.filterMap_cons_none (by rw [h]; rfl)

theorem slotCandidates_cons_some {slot : Slot} {properties : Bool} {child : NodeId}
    (h : slot.visitable? properties = some child) (key : String) (rest : List Slot) :
    slotCandidates key properties (slot :: rest) =
      ⟨key, child, slot⟩ :: slotCandidates key properties rest :=
  List.filterMap_cons_some (by rw [h]; rfl)

theorem key_of_mem_slotCandidates {key : String} {properties : Bool} {slots : List Slot}
    {c : Candidate} (h : c ∈ slotCandidates key properties slots) : c.key = key := by
  obtain ⟨slot, -, hc⟩ := List.mem_filterMap.1 h
  obtain ⟨child, -, rfl⟩ := Option.map_eq_some_iff.1 hc
  rfl

theorem candidate_of_value (heap : Heap) (properties : Bool) (key : String) (value : Value) :
    ((Slot.of heap value).visitable? properties).map (Candidate.mk key · (Slot.of heap value)) =
      (heap.visitable? properties value).map fun child =>
        ⟨key, child, Slot.of heap (.node child)⟩ := by
  rw [heap.visitable?_slot]
  cases value with
  | node id =>
    simp only [Heap.visitable?]
    split <;> rfl
  | _ => rfl

/-- The nodes to visit in places are those to visit among the values there. -/
theorem slotCandidates_values (heap : Heap) (properties : Bool) (key : String)
    (items : List Value) :
    slotCandidates key properties (items.map (Slot.of heap)) =
      (items.filterMap (heap.visitable? properties)).map fun child =>
        ⟨key, child, Slot.of heap (.node child)⟩ := by
  unfold slotCandidates
  rw [List.filterMap_map, List.map_filterMap]
  congr 1
  funext value
  exact candidate_of_value heap properties key value

/-- The places in a field, and whether they are a list of properties. -/
def Heap.placesIn (heap : Heap) (id : NodeId) (type key : String) : Bool × List Slot :=
  match heap.child id key with
  | .absent => (false, [])
  | .one slot => (false, [slot])
  | .many slots => (isPropertyList type key, slots)

/-- The nodes to visit in a field are those to visit in the places as which it is read. -/
theorem Heap.slotCandidates_placesIn (heap : Heap) (id : NodeId) (type key : String) :
    slotCandidates key (heap.placesIn id type key).1 (heap.placesIn id type key).2 =
      heap.candidates id type key := by
  unfold placesIn child candidates visitables
  cases heap.get? id key with
  | none => rfl
  | some value =>
    -- A value that is no list is in a place of its own.
    have hlone : slotCandidates key false [Slot.of heap value] =
        (heap.visitable? false value).toList.map fun child =>
          ⟨key, child, Slot.of heap (.node child)⟩ := by
      have hone := slotCandidates_values heap false key [value]
      rw [List.map_singleton, List.filterMap_cons, List.filterMap_nil] at hone
      rw [hone]
      cases heap.visitable? false value <;> rfl
    cases value with
    | null => rfl
    | array items => exact slotCandidates_values heap _ key items
    | bool _ => exact hlone
    | number _ => exact hlone
    | string _ => exact hlone
    | node _ => exact hlone
    | backRef _ => exact hlone

/-! ## Children are owned -/

namespace Heap

variable {heap : Heap}

/-- What is visited in a value is owned by it, each place of it once. -/
theorem visitablesIn_sublist (heap : Heap) (properties : Bool) (value : Value) :
    (heap.visitablesIn properties value).Sublist value.owned := by
  have hone : ∀ (properties : Bool) (value : Value),
      (heap.visitable? properties value).toList.Sublist value.owned := by
    intro properties value
    cases value with
    | node id =>
      dsimp only [visitable?]
      split
      · exact List.Sublist.refl _
      · exact List.nil_sublist _
    | _ => exact List.nil_sublist _
  cases value with
  | array items =>
    show (items.filterMap (heap.visitable? properties)).Sublist (Value.ownedByAll items)
    induction items with
    | nil => exact List.Sublist.refl _
    | cons item rest ih =>
      have hitem := (hone properties item).append ih
      rw [Value.ownedByAll]
      cases hv : heap.visitable? properties item with
      | none =>
        rw [List.filterMap_cons_none hv]
        rwa [hv] at hitem
      | some child =>
        rw [List.filterMap_cons_some hv]
        rwa [hv] at hitem
  | node id => exact hone false (.node id)
  | _ => exact List.nil_sublist _

/-- What is visited in a field is owned by its value. -/
theorem exists_entry_of_mem_visitables {id child : NodeId} {type key : String}
    (h : child ∈ heap.visitables id type key) :
    ∃ value, (key, value) ∈ (heap.fields id).entries ∧ child ∈ value.owned := by
  unfold visitables at h
  cases hget : heap.get? id key with
  | none =>
    rw [hget] at h
    cases h
  | some value =>
    rw [hget] at h
    exact ⟨value, Record.mem_of_find hget, (heap.visitablesIn_sublist _ value).subset h⟩

/-- A node owns its children. -/
theorem owns_of_mem_visitables {n child : NodeId} {type key : String}
    (h : child ∈ heap.visitables n type key) : heap.Owns n child := by
  obtain ⟨value, hvalue, hchild⟩ := exists_entry_of_mem_visitables h
  exact List.mem_flatMap.2 ⟨_, hvalue, hchild⟩

theorem owns_of_mem_childrenIn {n : NodeId} {type : String} {keys : List String}
    {branch : String × NodeId} (h : branch ∈ heap.childrenIn n type keys) :
    heap.Owns n branch.2 := by
  obtain ⟨key, -, hkey⟩ := List.mem_flatMap.1 h
  obtain ⟨child, hchild, rfl⟩ := List.mem_map.1 hkey
  exact owns_of_mem_visitables hchild

end Heap

end SyntaxWalk
