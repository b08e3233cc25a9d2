/-
Writing JSON text: compactly on one line, or with one member or item on a line. Only quotes,
backslashes and control characters are escaped.
-/
import SyntaxWalk.Json.Basic

namespace SyntaxWalk.Json

/-! ## Scalars -/

/-- Floating point numbers are written with an exponent from `10 ^ 16` on and below `10 ^ -5`. -/
def floatLayout : FloatLayout := ⟨fun e => -5 ≤ e && e < 16⟩

/-- The text of a number. -/
def numberText : Number → String
  | .int n => toString n
  | .float x => floatLayout.render x

/-- A character inside quotes. -/
def quotedChar (c : Char) : String :=
  match c with
  | '"' => "\\\""
  | '\\' => "\\\\"
  | '\x08' => "\\b"
  | '\t' => "\\t"
  | '\n' => "\\n"
  | '\x0c' => "\\f"
  | '\r' => "\\r"
  | c => if c < ' ' then "\\u" ++ Text.hexDigits 4 c.toNat else c.toString

/-- A text in quotes. -/
def quoted (text : String) : String :=
  text.foldl (fun out c => out ++ quotedChar c) "\"" ++ "\""

/-! ## Compact text -/

mutual

/-- The compact text of a value. -/
def compact : Json → String
  | .null => "null"
  | .bool b => if b then "true" else "false"
  | .number n => numberText n
  | .string s => quoted s
  | .array items => "[" ++ ",".intercalate (compactItems items) ++ "]"
  | .object members => "\x7b" ++ ",".intercalate (compactMembers members) ++ "\x7d"

/-- The compact texts of items. -/
def compactItems : List Json → List String
  | [] => []
  | item :: rest => compact item :: compactItems rest

/-- The compact texts of members. -/
def compactMembers : List (String × Json) → List String
  | [] => []
  | (name, value) :: rest => (quoted name ++ ":" ++ compact value) :: compactMembers rest

end

/-! ## Indented text -/

/-- The beginning of a line at a depth: two spaces for each level. -/
def indent (depth : Nat) : String := Text.fill ' ' (2 * depth)

/-- Lines between two brackets. -/
def block (opening closing : String) (depth : Nat) (lines : List String) : String :=
  if lines.isEmpty then opening ++ closing
  else
    opening ++ "\n" ++ ",\n".intercalate (lines.map (indent (depth + 1) ++ ·)) ++ "\n" ++
      indent depth ++ closing

mutual

/-- The indented text of a value that stands at a depth. -/
def indentedAt (depth : Nat) : Json → String
  | .array items => block "[" "]" depth (indentedItems (depth + 1) items)
  | .object members => block "\x7b" "\x7d" depth (indentedMembers (depth + 1) members)
  | value => compact value

/-- The indented texts of items. -/
def indentedItems (depth : Nat) : List Json → List String
  | [] => []
  | item :: rest => indentedAt depth item :: indentedItems depth rest

/-- The indented texts of members. -/
def indentedMembers (depth : Nat) : List (String × Json) → List String
  | [] => []
  | (name, value) :: rest =>
    (quoted name ++ ": " ++ indentedAt depth value) :: indentedMembers depth rest

end

/-- The indented text of a value. -/
def indented (json : Json) : String := indentedAt 0 json

end SyntaxWalk.Json
