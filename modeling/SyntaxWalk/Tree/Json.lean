/-
Trees from JSON and back. An object becomes a node, so reading a value adds one node for each of
its objects, and none of them is shared. Writing follows owning edges: a node shared by two edges
is written twice, a field that holds a back-reference is left out, and a back-reference anywhere
else is null. A value whose edges lead into a cycle has no JSON.
-/
import SyntaxWalk.Json.Basic
import SyntaxWalk.Tree.Heap

namespace SyntaxWalk

namespace Heap

/-! ## From JSON -/

mutual

/-- Adds the nodes of a JSON value and gives the value. -/
def ofJson (heap : Heap) : Json → Value × Heap
  | .null => (.null, heap)
  | .bool b => (.bool b, heap)
  | .number n => (.number n, heap)
  | .string s => (.string s, heap)
  | .array items =>
    let (values, heap) := ofItems heap items
    (.array values, heap)
  | .object members =>
    let (fields, heap) := ofMembers heap members
    let (id, heap) := heap.alloc (Record.ofList fields)
    (.node id, heap)

/-- Adds the nodes of the items of a list and gives the values. -/
def ofItems (heap : Heap) : List Json → List Value × Heap
  | [] => ([], heap)
  | item :: rest =>
    let (value, heap) := ofJson heap item
    let (values, heap) := ofItems heap rest
    (value :: values, heap)

/-- Adds the nodes of the members of an object and gives its fields. -/
def ofMembers (heap : Heap) : List (String × Json) → List (String × Value) × Heap
  | [] => ([], heap)
  | (name, json) :: rest =>
    let (value, heap) := ofJson heap json
    let (fields, heap) := ofMembers heap rest
    ((name, value) :: fields, heap)

end

/-- Adds the nodes of a JSON object and gives its node; another value is no node. -/
def nodeOfJson? (heap : Heap) (json : Json) : Option NodeId × Heap :=
  match heap.ofJson json with
  | (.node id, heap) => (some id, heap)
  | _ => (none, heap)

/-! ## To JSON -/

mutual

/-- The JSON of a value, if a path of owning edges from it is at most as long as `node` can follow;
`node` gives the JSON of a node. -/
def valueJson? (node : NodeId → Option Json) : Value → Option Json
  | .null => some .null
  | .bool b => some (.bool b)
  | .number n => some (.number n)
  | .string s => some (.string s)
  | .array items => .array <$> itemsJson? node items
  | .node id => node id
  | .backRef _ => some .null

/-- The JSON of the items of a list. -/
def itemsJson? (node : NodeId → Option Json) : List Value → Option (List Json)
  | [] => some []
  | item :: rest => do
    let json ← valueJson? node item
    return json :: (← itemsJson? node rest)

end

/-- The members of a node's JSON: its fields, but those that hold a back-reference. -/
def membersJson? (node : NodeId → Option Json) :
    List (String × Value) → Option (List (String × Json))
  | [] => some []
  | (name, value) :: rest =>
    if value.isBackRef then membersJson? node rest
    else do
      let json ← valueJson? node value
      return (name, json) :: (← membersJson? node rest)

/-- The JSON of a node, if every path of owning edges from it has fewer than `limit` nodes. -/
def nodeJson? (heap : Heap) : Nat → NodeId → Option Json
  | 0, _ => none
  | limit + 1, id => .object <$> membersJson? (heap.nodeJson? limit) (heap.fields id).entries

/-- The JSON of a value. A path with more nodes than the heap has runs into a cycle, or ends in a
node that was never added and so has no fields. -/
def toJson? (heap : Heap) (value : Value) : Option Json :=
  valueJson? (heap.nodeJson? (heap.size + 1)) value

end Heap

end SyntaxWalk
