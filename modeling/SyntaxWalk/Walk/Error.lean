/-
What can go wrong in a walk.
-/

namespace SyntaxWalk

/-- Why a walk stopped. -/
inductive VisitError where
  /-- The type of a node is in no key table and the fallback forbids that. -/
  | unknownNodeType (type : String)
  /-- A child of a node of the given type, under the given key, is a node that is being walked. -/
  | cyclicChild (type key : String)
  /-- A handler gave up. -/
  | handler (message : String)
deriving DecidableEq

/-- The wording of an error. -/
def VisitError.message : VisitError → String
  | .unknownNodeType type => s!"Unknown node type {type}."
  | .cyclicChild type key => s!"Cyclic child: {type}.{key} refers to an enclosing node."
  | .handler message => s!"Handler error: {message}"

/-- How a call ends. -/
abbrev Outcome := Except VisitError Unit

end SyntaxWalk
