/-
Heaps of nodes. A node is a record of values under an identity; identities are given out in order
and never again. Handles and owning edges are identities, so nodes can be shared and edges can form
cycles.
-/
import SyntaxWalk.Record
import SyntaxWalk.Tree.Value

namespace SyntaxWalk

/-- The fields of a node. -/
abbrev Fields := Record Value

namespace Fields

/-- The text of a field that holds a string. -/
def text? (fields : Fields) (key : String) : Option String := (fields.get? key).bind Value.string?

/-- Whether the field `type` holds a string, be it empty. -/
def isTyped (fields : Fields) : Bool := (fields.text? "type").isSome

/-- The type of a node: the string under `type`, unless it is empty. -/
def type? (fields : Fields) : Option String := (fields.text? "type").filter (· ≠ "")

/-- The type that stands in for a missing one. -/
def defaultType : String := "Property"

/-- The type under which a node is handled. -/
def effectiveType (fields : Fields) : String := fields.type?.getD defaultType

/-- The nodes that the fields own. -/
def owned (fields : Fields) : List NodeId := fields.entries.flatMap (·.2.owned)

end Fields

/-- All the nodes there ever were, by identity. -/
structure Heap where
  nodes : Array Fields
deriving Inhabited

namespace Heap

/-- The heap without nodes. -/
def empty : Heap := ⟨#[]⟩

instance : EmptyCollection Heap := ⟨empty⟩

/-- The number of nodes. -/
def size (heap : Heap) : Nat := heap.nodes.size

/-- The fields of a node. -/
def fields (heap : Heap) (id : NodeId) : Fields := heap.nodes.getD id ∅

/-- Adds a node. -/
def alloc (heap : Heap) (fields : Fields) : NodeId × Heap := (heap.size, ⟨heap.nodes.push fields⟩)

/-- Changes the fields of a node. -/
def update (heap : Heap) (id : NodeId) (change : Fields → Fields) : Heap :=
  ⟨heap.nodes.modify id change⟩

/-- The value of a field. -/
def get? (heap : Heap) (id : NodeId) (key : String) : Option Value := (heap.fields id).get? key

/-- Sets a field. -/
def insert (heap : Heap) (id : NodeId) (key : String) (value : Value) : Heap :=
  heap.update id (·.insert key value)

/-- Removes a field. -/
def erase (heap : Heap) (id : NodeId) (key : String) : Heap := heap.update id (·.erase key)

/-- Removes a field, and gives the value that it had. -/
def remove (heap : Heap) (id : NodeId) (key : String) : Option Value × Heap :=
  (((heap.fields id).remove key).1, heap.update id (fun fields => (fields.remove key).2))

/-- The type under which a node is handled. -/
def effectiveType (heap : Heap) (id : NodeId) : String := (heap.fields id).effectiveType

/-! ## What operations do to the fields of nodes -/

theorem fields_eq (heap : Heap) (id : NodeId) : heap.fields id = heap.nodes[id]?.getD ∅ := by
  simp [fields, Array.getD_eq_getD_getElem?]

@[simp] theorem size_update (heap : Heap) (id : NodeId) (change : Fields → Fields) :
    (heap.update id change).size = heap.size := by
  simp [size, update]

theorem fields_update (heap : Heap) (id other : NodeId) (change : Fields → Fields) :
    (heap.update id change).fields other =
      if other = id ∧ id < heap.size then change (heap.fields id) else heap.fields other := by
  simp only [fields_eq, update, Array.getElem?_modify, size]
  by_cases h : other = id
  · subst h
    by_cases hs : other < heap.nodes.size <;> simp [hs]
  · simp [h, Ne.symm h]

theorem remove_eq (heap : Heap) (id : NodeId) (key : String) :
    heap.remove id key = (heap.get? id key, heap.erase id key) := by
  unfold remove get? erase
  simp only [Record.remove_eq]

@[simp] theorem size_alloc (heap : Heap) (fields : Fields) :
    (heap.alloc fields).2.size = heap.size + 1 := by
  simp [size, alloc]

theorem fields_alloc (heap : Heap) (fields : Fields) (other : NodeId) :
    (heap.alloc fields).2.fields other =
      if other = heap.size then fields else heap.fields other := by
  simp only [fields_eq, alloc, Array.getElem?_push, size]
  by_cases h : other = heap.nodes.size <;> simp [h]

end Heap

end SyntaxWalk
