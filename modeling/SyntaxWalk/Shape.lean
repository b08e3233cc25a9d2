/-
Shapes: what a JSON value has to look like to stand for something, and the errors that say where it
does not. A value is read from front to back and the first misfit is told.
-/
import SyntaxWalk.Json.Writer
import SyntaxWalk.Keys.Table
import SyntaxWalk.Text.Display

namespace SyntaxWalk

/-- Why a value has not the shape that it should have. -/
inductive ShapeError where
  /-- The value is of another kind than the one that is expected. -/
  | invalidType (found : Json) (expected : String)
  /-- The object has none or several members where one is expected. -/
  | notSingle
  | unknownField (name : String) (known : List String)
  | unknownVariant (name : String) (known : List String)
  | missingField (name : String)
  | invalidLength (length : Nat) (expected : String)

namespace ShapeError

/-- A value by its kind, with its text if it is a scalar. -/
def kind : Json → String
  | .null => "null"
  | .bool b => if b then "boolean `true`" else "boolean `false`"
  | .number (.int n) => "integer `" ++ Json.numberText (.int n) ++ "`"
  | .number (.float x) => "floating point `" ++ Json.numberText (.float x) ++ "`"
  | .string s => "string " ++ Text.quote s
  | .array _ => "sequence"
  | .object _ => "map"

/-- The names that would have been right. -/
def alternatives (names : List String) : String :=
  " or ".intercalate (names.map (fun name => "`" ++ name ++ "`"))

/-- The wording of an error. -/
def message : ShapeError → String
  | .invalidType found expected => "invalid type: " ++ kind found ++ ", expected " ++ expected
  | .notSingle => "invalid value: map, expected map with a single key"
  | .unknownField name known =>
    "unknown field `" ++ name ++ "`, expected " ++ alternatives known
  | .unknownVariant name known =>
    "unknown variant `" ++ name ++ "`, expected " ++ alternatives known
  | .missingField name => "missing field `" ++ name ++ "`"
  | .invalidLength length expected =>
    "invalid length " ++ toString length ++ ", expected " ++ expected

end ShapeError

/-- What is read from a value, or the first misfit. -/
abbrev Shaped (α : Type) := Except ShapeError α

namespace Shape

/-- A text. -/
def text : Json → Shaped String
  | .string s => .ok s
  | json => .error (.invalidType json "a string")

/-- A list of texts. -/
def texts : Json → Shaped (List String)
  | .array items => items.mapM text
  | json => .error (.invalidType json "a sequence")

/-- A table of lists of texts. -/
def table : Json → Shaped KeyTable
  | .object members => do
    let entries ← members.mapM (fun (name, json) => return (name, ← texts json))
    return .ofList entries
  | json => .error (.invalidType json "a map")

/-- The error of a list with more elements than are read. -/
def tooLong (length : Nat) : ShapeError := .invalidLength length "fewer elements in array"

end Shape

end SyntaxWalk
