/-
Views: how a value looks to an observer at some moment. A node is seen as its type and the names of
its fields, a back-reference as the type of its target while that is alive.
-/
import SyntaxWalk.Tree.Child

namespace SyntaxWalk.Scenario

/-- A value as it is seen. -/
inductive View where
  | null
  | bool (value : Bool)
  | number (value : Number)
  | string (text : String)
  | array (items : List View)
  | node (type : String) (keys : List String)
  | backRef (type : Option String)

mutual

/-- How a value is seen, when `alive` tells which nodes are alive. -/
def view (heap : Heap) (alive : NodeId → Bool) : Value → View
  | .null => .null
  | .bool b => .bool b
  | .number n => .number n
  | .string s => .string s
  | .array items => .array (viewAll heap alive items)
  | .node id => .node (heap.effectiveType id) (heap.fields id).keys
  | .backRef target => .backRef ((target.filter alive).map heap.effectiveType)

/-- How the items of a list are seen. -/
def viewAll (heap : Heap) (alive : NodeId → Bool) : List Value → List View
  | [] => []
  | item :: rest => view heap alive item :: viewAll heap alive rest

end

/-- How a place for a child is seen: its kind and the type of its node. -/
structure SlotView where
  kind : String
  type : Option String

/-- How a place for a child is seen. -/
def SlotView.of (heap : Heap) (slot : Slot) : SlotView :=
  let kind :=
    match slot with
    | .absent => "absent"
    | .node _ => "node"
    | .untyped _ => "untyped"
    | .other => "opaque"
  ⟨kind, slot.node?.map heap.effectiveType⟩

/-- How children are seen. -/
inductive ChildView where
  | absent
  | one (slot : SlotView)
  | many (slots : List SlotView)

/-- How children are seen. -/
def ChildView.of (heap : Heap) : Child → ChildView
  | .absent => .absent
  | .one slot => .one (.of heap slot)
  | .many slots => .many (slots.map (SlotView.of heap))

end SyntaxWalk.Scenario
