/-
Tokens of JSON text, and the strict division of a text into them. Only space, tab, line feed and
carriage return divide tokens, a string holds no control character, and a number too large for a
floating point number is refused.
-/
import SyntaxWalk.Json.Basic
import SyntaxWalk.Json.Literal
import SyntaxWalk.Json.Quoted

namespace SyntaxWalk.Json

/-- A token of JSON text, with or without comments. -/
inductive Token where
  /-- A bracket, a brace, a comma or a colon. -/
  | mark (c : Char)
  | string (text : String)
  /-- A number: what it stands for, and how it was written. -/
  | number (value : Json) (source : String)
  /-- A name for a value: true, false or null. -/
  | constant (value : Json)
  /-- Any other unquoted word. -/
  | word (text : String)

namespace Token

/-- The characters that are tokens of their own. -/
def isMark (c : Char) : Bool :=
  c = '\x7b' || c = '\x7d' || c = '[' || c = ']' || c = ',' || c = ':'

/-- The characters between tokens. -/
def isBlank (c : Char) : Bool := c = ' ' || c = '\t' || c = '\n' || c = '\r'

/-- Reads a number after its sign. -/
def number? (negative : Bool) (text : List Char) : Option (Token × List Char) := do
  let (literal, rest) ← NumberLiteral.unsigned? negative text
  let value ← literal.value?
  return (.number (.number value) "", rest)

/-- Reads a string after its opening quote. -/
def string? (text : List Char) : Option (Token × List Char) := do
  let (raw, rest) ← Quoted.split '"' [] text
  if raw.any (· < ' ') then none
  else
    let content ← Quoted.decode? '"' raw
    return (.string content, rest)

/-- Reads the token at the front of a text. -/
def next? : List Char → Option (Token × List Char)
  | 't' :: 'r' :: 'u' :: 'e' :: rest => some (.constant (.bool true), rest)
  | 'f' :: 'a' :: 'l' :: 's' :: 'e' :: rest => some (.constant (.bool false), rest)
  | 'n' :: 'u' :: 'l' :: 'l' :: rest => some (.constant .null, rest)
  | c :: rest =>
    if isMark c then some (.mark c, rest)
    else if c = '"' then string? rest
    else if c = '-' then number? true rest
    else number? false (c :: rest)
  | [] => none

theorem length_number? {negative : Bool} {text rest : List Char} {t : Token}
    (h : number? negative text = some (t, rest)) : rest.length < text.length := by
  simp only [number?, Option.bind_eq_bind, Option.bind_eq_some_iff, Prod.exists] at h
  obtain ⟨_, r, hr, _, _, h⟩ := h
  simp at h
  exact h.2 ▸ NumberLiteral.length_unsigned? hr

theorem length_string? {text rest : List Char} {t : Token}
    (h : string? text = some (t, rest)) : rest.length < text.length := by
  simp only [string?, Option.bind_eq_bind, Option.bind_eq_some_iff, Prod.exists] at h
  obtain ⟨_, r, hr, h⟩ := h
  split at h
  · simp at h
  · simp only [Option.bind_eq_some_iff] at h
    obtain ⟨_, _, h⟩ := h
    simp at h
    exact h.2 ▸ Quoted.length_split hr

theorem length_next? {text rest : List Char} {t : Token} (h : next? text = some (t, rest)) :
    rest.length < text.length := by
  unfold next? at h
  split at h
  · simp at h; simp [← h.2]; omega
  · simp at h; simp [← h.2]; omega
  · simp at h; simp [← h.2]; omega
  · split at h
    · simp at h; simp [h.2]
    · split at h
      · have := length_string? h; simp; omega
      · split at h
        · have := length_number? h; simp; omega
        · exact length_number? h
  · simp at h

/-- Divides a text into its tokens, put after `before` in reverse. -/
def all? (before : List Token) (text : List Char) : Option (List Token) :=
  match text with
  | [] => some before.reverse
  | c :: rest =>
    if isBlank c then all? before rest
    else
      match _h : next? (c :: rest) with
      | none => none
      | some (t, after) => all? (t :: before) after
termination_by text.length
decreasing_by
  · simp
  · exact length_next? ‹_›

end Token

end SyntaxWalk.Json
