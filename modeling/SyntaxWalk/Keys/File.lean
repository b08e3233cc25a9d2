/-
Key table files as JSON: an object with the grammar, its version and the table, in any order and
with other members ignored; or a list of the three.
-/
import SyntaxWalk.Shape

namespace SyntaxWalk.KeyTableFile

/-- A table as JSON. -/
def tableJson (table : KeyTable) : Json :=
  .object (table.entries.map (fun (type, keys) => (type, .array (keys.map .string))))

/-- A file as JSON. -/
def toJson (file : KeyTableFile) : Json :=
  .object
    [("grammar", .string file.grammar), ("version", .string file.version),
      ("keys", tableJson file.keys)]

/-- The members of a file that were read so far. -/
structure Draft where
  grammar : Option String := none
  version : Option String := none
  keys : Option KeyTable := none

/-- Reads one more member. -/
def Draft.read (draft : Draft) (member : String × Json) : Shaped Draft :=
  match member with
  | ("grammar", json) => return { draft with grammar := ← Shape.text json }
  | ("version", json) => return { draft with version := ← Shape.text json }
  | ("keys", json) => return { draft with keys := ← Shape.table json }
  | _ => .ok draft

/-- What is there, or the error that it is missing. -/
def require {α : Type} (name : String) (item : Option α) : Shaped α :=
  item.elim (.error (.missingField name)) .ok

/-- The error of a list with too few elements. -/
def tooShort (length : Nat) : ShapeError :=
  .invalidLength length "struct KeyTableFile with 3 elements"

/-- Reads a list of the three members. -/
def ofItems : List Json → Shaped KeyTableFile
  | [] => .error (tooShort 0)
  | grammar :: rest => do
    let grammar ← Shape.text grammar
    match rest with
    | [] => .error (tooShort 1)
    | version :: rest =>
      let version ← Shape.text version
      match rest with
      | [] => .error (tooShort 2)
      | keys :: rest =>
        let keys ← Shape.table keys
        if rest.isEmpty then .ok ⟨grammar, version, keys⟩
        else .error (Shape.tooLong (rest.length + 3))

/-- Reads a file. -/
def ofJson : Json → Shaped KeyTableFile
  | .object members => do
    let draft ← members.foldlM Draft.read {}
    let grammar ← require "grammar" draft.grammar
    let version ← require "version" draft.version
    let keys ← require "keys" draft.keys
    return ⟨grammar, version, keys⟩
  | .array items => ofItems items
  | json => .error (.invalidType json "struct KeyTableFile")

end SyntaxWalk.KeyTableFile
