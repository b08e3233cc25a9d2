/-
Children of a node. A field is read as no child, one, or many, and each place in it is sorted by
what it holds: nothing, a node with a type, a node without one, or something that is no node.
-/
import SyntaxWalk.Tree.Heap

namespace SyntaxWalk

/-- A place for a child. -/
inductive Slot where
  | absent
  | node (id : NodeId)
  | untyped (id : NodeId)
  | other
deriving DecidableEq

/-- What a field holds, as children. -/
inductive Child where
  | absent
  | one (slot : Slot)
  | many (slots : List Slot)
deriving DecidableEq

namespace Slot

/-- Sorts a value by what it is as a child. -/
def of (heap : Heap) : Value → Slot
  | .null => .absent
  | .node id => if (heap.fields id).isTyped then .node id else .untyped id
  | _ => .other

/-- The node in a place, with a type or without. -/
def node? : Slot → Option NodeId
  | .node id => some id
  | .untyped id => some id
  | _ => none

/-- The node that a walk enters: one with a type, and in a list of properties also one without. -/
def visitable? (properties : Bool) : Slot → Option NodeId
  | .node id => some id
  | .untyped id => if properties then some id else none
  | _ => none

end Slot

namespace Child

/-- Sorts the value of a field, which may be missing. -/
def of (heap : Heap) : Option Value → Child
  | none => .absent
  | some .null => .absent
  | some (.array items) => .many (items.map (Slot.of heap))
  | some value => .one (Slot.of heap value)

end Child

/-- The field of a node as children. -/
def Heap.child (heap : Heap) (id : NodeId) (key : String) : Child :=
  Child.of heap (heap.get? id key)

end SyntaxWalk
