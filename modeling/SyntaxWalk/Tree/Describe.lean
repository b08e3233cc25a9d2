/-
Descriptions of nodes, values and children, for people who look into a tree.
-/
import SyntaxWalk.Json.Writer
import SyntaxWalk.Text.Display
import SyntaxWalk.Tree.Child

namespace SyntaxWalk

/-- The description of a node: its type and the names of its fields. -/
def Fields.describe (fields : Fields) : String :=
  let type :=
    match fields.type? with
    | some type => "Some(" ++ Text.quote type ++ ")"
    | none => "None"
  "Node \x7b type: " ++ type ++ ", keys: " ++ Text.quoteAll fields.keys ++ " \x7d"

namespace Heap

/-- The description of a node. -/
def describe (heap : Heap) (id : NodeId) : String := (heap.fields id).describe

mutual

/-- The description of a value. -/
def describeValue (heap : Heap) : Value → String
  | .null => "Null"
  | .bool b => if b then "Bool(true)" else "Bool(false)"
  | .number n => "Number(Number(" ++ Json.numberText n ++ "))"
  | .string s => "String(" ++ Text.quote s ++ ")"
  | .array items => "Array(" ++ Text.bracket (describeItems heap items) ++ ")"
  | .node id => "Node(" ++ heap.describe id ++ ")"
  | .backRef _ => "Ref(WeakNode)"

/-- The descriptions of the items of a list. -/
def describeItems (heap : Heap) : List Value → List String
  | [] => []
  | item :: rest => describeValue heap item :: describeItems heap rest

end

/-- The description of a place for a child. -/
def describeSlot (heap : Heap) : Slot → String
  | .absent => "Absent"
  | .node id => "Node(" ++ heap.describe id ++ ")"
  | .untyped id => "Untyped(" ++ heap.describe id ++ ")"
  | .other => "Opaque"

/-- The description of children. -/
def describeChild (heap : Heap) : Child → String
  | .absent => "Absent"
  | .one slot => "One(" ++ heap.describeSlot slot ++ ")"
  | .many slots => "Many(" ++ Text.bracket (slots.map heap.describeSlot) ++ ")"

end Heap

end SyntaxWalk
