/-
Values of a tree. What a field holds is a scalar, a list, an edge that owns a node, or a
back-reference, which points at a node without keeping it alive.
-/
import SyntaxWalk.Number.Text

namespace SyntaxWalk

/-- Names a node of a heap. -/
abbrev NodeId := Nat

/-- What a field of a node holds. -/
inductive Value where
  | null
  | bool (value : Bool)
  | number (value : Number)
  | string (text : String)
  | array (items : List Value)
  /-- An edge that owns its node. -/
  | node (id : NodeId)
  /-- A reference that does not own its target; without a target it was never alive. -/
  | backRef (target : Option NodeId)
deriving Inhabited

namespace Value

/-- The text of a string. -/
def string? : Value → Option String
  | .string text => some text
  | _ => none

/-- The integer, if it is one that 64 bits hold with a sign. -/
def int64? : Value → Option Int
  | .number (.int n) => if -0x8000000000000000 ≤ n ∧ n < 0x8000000000000000 then some n else none
  | _ => none

/-- The node that an owning edge leads to. -/
def node? : Value → Option NodeId
  | .node id => some id
  | _ => none

/-- Whether a value is null. -/
def isNull : Value → Bool
  | .null => true
  | _ => false

/-- Whether a value is a back-reference. -/
def isBackRef : Value → Bool
  | .backRef _ => true
  | _ => false

/-- A floating point number as a value: an infinity, or what is not a number, becomes null. -/
def ofFloat (x : Binary64) : Value :=
  if x.isFinite then .number (.float x) else .null

mutual

/-- The nodes that a value owns, also through lists within lists. -/
def owned : Value → List NodeId
  | .node id => [id]
  | .array items => ownedByAll items
  | _ => []

/-- The nodes that the items of a list own. -/
def ownedByAll : List Value → List NodeId
  | [] => []
  | item :: rest => owned item ++ ownedByAll rest

end

end Value

end SyntaxWalk
