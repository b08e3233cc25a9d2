/-
Reading JSON text. The tokens are put together from left to right on a stack of open lists and
objects, so nesting is bounded by a stated depth and not by the machine.
-/
import SyntaxWalk.Json.Token

namespace SyntaxWalk.Json

/-- A list or an object that is not closed yet: what it holds so far, newest first, and for an
object the name of the member that comes next. -/
inductive Frame where
  | array (items : List Json)
  | object (members : List (String × Json)) (name : String)

/-- What may come next. -/
inductive Expected where
  /-- A value. -/
  | value
  /-- A value, or the end of the list that was just opened. -/
  | firstItem
  /-- A name, or the end of the object that was just opened. -/
  | firstName
  /-- A name. -/
  | name
  /-- The colon after a name. -/
  | colon
  /-- A comma or the end of what is open. -/
  | separator
  /-- Nothing: the text is complete. -/
  | nothing (value : Json)

/-- A document that was read up to some token: what is open, innermost first, and what may come
next. -/
structure Draft where
  frames : List Frame
  expected : Expected

namespace Draft

/-- Puts a complete value into what is open. -/
def complete (value : Json) : List Frame → Draft
  | [] => ⟨[], .nothing value⟩
  | .array items :: rest => ⟨.array (value :: items) :: rest, .separator⟩
  | .object members name :: rest => ⟨.object ((name, value) :: members) "" :: rest, .separator⟩

/-- Ends the innermost open list or object with a closing mark. -/
def close? (mark : Char) : List Frame → Option Draft
  | .array items :: rest => if mark = ']' then complete (.array items.reverse) rest else none
  | .object members _ :: rest =>
    if mark = '\x7d' then complete (ofMembers members.reverse) rest else none
  | [] => none

/-- Starts a value. -/
def value? (depth : Nat) (frames : List Frame) : Token → Option Draft
  | .string text => some (complete (.string text) frames)
  | .number value _ => some (complete value frames)
  | .constant value => some (complete value frames)
  | .word _ => none
  | .mark c =>
    if frames.length < depth then
      if c = '[' then some ⟨.array [] :: frames, .firstItem⟩
      else if c = '\x7b' then some ⟨.object [] "" :: frames, .firstName⟩
      else none
    else none

/-- Takes the name of a member. -/
def name? (frames : List Frame) : Token → Option Draft
  | .string text =>
    match frames with
    | .object members _ :: rest => some ⟨.object members text :: rest, .colon⟩
    | _ => none
  | _ => none

/-- Takes one more token. -/
def step? (depth : Nat) (p : Draft) (t : Token) : Option Draft :=
  match p.expected with
  | .value => value? depth p.frames t
  | .firstItem =>
    match t with
    | .mark ']' => close? ']' p.frames
    | t => value? depth p.frames t
  | .firstName =>
    match t with
    | .mark '\x7d' => close? '\x7d' p.frames
    | t => name? p.frames t
  | .name => name? p.frames t
  | .colon =>
    match t with
    | .mark ':' => some ⟨p.frames, .value⟩
    | _ => none
  | .separator =>
    match t, p.frames with
    | .mark ',', .array _ :: _ => some ⟨p.frames, .value⟩
    | .mark ',', .object _ _ :: _ => some ⟨p.frames, .name⟩
    | .mark c, frames => close? c frames
    | _, _ => none
  | .nothing _ => none

end Draft

/-- The value that tokens stand for, if at most `depth` lists and objects are open at a time. -/
def ofTokens? (depth : Nat) (tokens : List Token) : Option Json := do
  let p ← tokens.foldlM (Draft.step? depth) ⟨[], .value⟩
  match p.expected with
  | .nothing value => some value
  | _ => none

/-- Reads a text in which at most `depth` lists and objects are open at a time. -/
def readWithin? (depth : Nat) (text : String) : Option Json := do
  ofTokens? depth (← Token.all? [] text.toList)

/-- How many lists and objects of a document may be open at a time. -/
def documentDepth : Nat := 127

/-- Reads a document. -/
def read? (text : String) : Option Json := readWithin? documentDepth text

end SyntaxWalk.Json
