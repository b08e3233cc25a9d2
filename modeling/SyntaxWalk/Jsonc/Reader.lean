/-
Reading JSON with comments. A comma after an item or a member may be left out or stand before the
end, names need no quotes, and a text without any value is allowed. Nesting is not bounded.
-/
import SyntaxWalk.Json.Reader
import SyntaxWalk.Jsonc.Token

namespace SyntaxWalk.Jsonc

open Json (Token Frame)

/-- What may come next. -/
inductive Expected where
  /-- A value. -/
  | value
  /-- An item, a name or the end of what is open; also a comma, if `comma`. -/
  | entry (comma : Bool)
  /-- The colon after a name. -/
  | colon
  /-- Nothing: the text is complete. -/
  | nothing (value : Json)

/-- A text that was read up to some token: what is open, innermost first, and what may come next. -/
structure Draft where
  frames : List Frame
  expected : Expected

namespace Draft

/-- Puts a complete value into what is open. -/
def complete (value : Json) : List Frame → Draft
  | [] => ⟨[], .nothing value⟩
  | .array items :: rest => ⟨.array (value :: items) :: rest, .entry true⟩
  | .object members name :: rest => ⟨.object ((name, value) :: members) "" :: rest, .entry true⟩

/-- Starts a value. -/
def value? (frames : List Frame) : Token → Option Draft
  | .string text => some (complete (.string text) frames)
  | .number value _ => some (complete value frames)
  | .constant value => some (complete value frames)
  | .word _ => none
  | .mark '[' => some ⟨.array [] :: frames, .entry false⟩
  | .mark '\x7b' => some ⟨.object [] "" :: frames, .entry false⟩
  | .mark _ => none

/-- The name of a member. A number is a name as it was written. -/
def name? : Token → Option String
  | .string text => some text
  | .number _ source => some source
  | .word text => some text
  | _ => none

/-- Takes an item or a name, or ends what is open. -/
def entry? (comma : Bool) (frames : List Frame) (t : Token) : Option Draft :=
  match t, frames with
  | .mark ',', _ => if comma then some ⟨frames, .entry false⟩ else none
  | .mark ']', .array items :: rest => some (complete (.array items.reverse) rest)
  | t, .array _ :: _ => value? frames t
  | .mark '\x7d', .object members _ :: rest =>
    some (complete (Json.ofMembers members.reverse) rest)
  | t, .object members _ :: rest => do
    let name ← name? t
    return ⟨.object members name :: rest, .colon⟩
  | _, [] => none

/-- Takes one more token. -/
def step? (d : Draft) (t : Token) : Option Draft :=
  match d.expected with
  | .value => value? d.frames t
  | .entry comma => entry? comma d.frames t
  | .colon =>
    match t with
    | .mark ':' => some ⟨d.frames, .value⟩
    | _ => none
  | .nothing _ => none

end Draft

/-- The value that tokens stand for; there may be none. -/
def ofTokens? (tokens : List Token) : Option (Option Json) :=
  if tokens.isEmpty then some none
  else do
    let d ← tokens.foldlM Draft.step? ⟨[], .value⟩
    match d.expected with
    | .nothing value => some (some value)
    | _ => none

/-- Reads a text; there may be no value in it. -/
def read? (text : String) : Option (Option Json) := do ofTokens? (← all? [] text.toList)

end SyntaxWalk.Jsonc
