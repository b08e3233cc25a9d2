/-
Key tables: which fields of a node hold its children, by the node's type and in the order in which
they are visited. A table may come from a file that names the grammar it is made for.
-/
import SyntaxWalk.StringMap

namespace SyntaxWalk

/-- The child fields of each type. -/
abbrev KeyTable := StringMap (List String)

/-- A table with the grammar, and the revision of the grammar, that it describes. -/
structure KeyTableFile where
  grammar : String
  version : String
  keys : KeyTable
deriving DecidableEq

/-- The type of object literals. -/
def objectExpression : String := "ObjectExpression"

/-- The type of patterns that take objects apart. -/
def objectPattern : String := "ObjectPattern"

/-- The field of an object literal or pattern that holds its entries. -/
def propertiesKey : String := "properties"

/-- Whether a field holds properties, which are visited even without a type. -/
def isPropertyList (type key : String) : Bool :=
  (type = objectExpression || type = objectPattern) && key = propertiesKey

end SyntaxWalk
