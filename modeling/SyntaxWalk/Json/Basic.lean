/-
JSON values. Members of an object stand in document order, and integers and floating point numbers
are told apart.
-/
import SyntaxWalk.Number.Text
import SyntaxWalk.Record

namespace SyntaxWalk

/-- A JSON value. -/
inductive Json where
  | null
  | bool (value : Bool)
  | number (value : Number)
  | string (text : String)
  | array (items : List Json)
  | object (members : List (String × Json))
deriving Inhabited

namespace Json

/-- The object that arises when members are set one after the other: of members with one name the
last value stays, at the place of the first. -/
def ofMembers (members : List (String × Json)) : Json := .object (Record.ofList members).entries

/-- The member of an object under a name. -/
def get? (json : Json) (name : String) : Option Json :=
  match json with
  | .object members => Record.find name members
  | _ => none

/-- The text of a string. -/
def string? : Json → Option String
  | .string text => some text
  | _ => none

/-- The items of a list. -/
def array? : Json → Option (List Json)
  | .array items => some items
  | _ => none

/-- The members of an object. -/
def object? : Json → Option (List (String × Json))
  | .object members => some members
  | _ => none

end Json

end SyntaxWalk
