/-
Tokens of JSON with comments. White space of all scripts and comments stand between tokens. Strings
may have single or double quotes and hold any character, numbers may have a plus sign or be
hexadecimal, and a word may stand without quotes.
-/
import SyntaxWalk.Json.Token
import SyntaxWalk.Text.Classes

namespace SyntaxWalk.Jsonc

open Json (Token)

/-- What follows a comment that was opened by a slash and a star. -/
def afterComment? : List Char → Option (List Char)
  | '*' :: '/' :: rest => some rest
  | _ :: rest => afterComment? rest
  | [] => none

/-- Whether a text goes on with a letter or a digit. -/
def continues : List Char → Bool
  | c :: _ => Text.isAlphanumeric c
  | [] => false

/-- The value that a name at the front of a text stands for, if the name ends there. -/
def constant? : List Char → Option (Json × List Char)
  | 't' :: 'r' :: 'u' :: 'e' :: rest => if continues rest then none else some (.bool true, rest)
  | 'f' :: 'a' :: 'l' :: 's' :: 'e' :: rest =>
    if continues rest then none else some (.bool false, rest)
  | 'n' :: 'u' :: 'l' :: 'l' :: rest => if continues rest then none else some (.null, rest)
  | _ => none

/-- Whether a word goes on with a character. -/
def isWordChar (c : Char) : Bool := !Text.isBlank c && c ≠ ':'

/-- Reads a word that starts with `c`. It goes on to white space or a colon, and consists of
letters, digits, hyphens and underscores. -/
def word? (c : Char) (text : List Char) : Option (Token × List Char) :=
  let word := c :: text.takeWhile isWordChar
  if word.all (fun c => Text.isAlphanumeric c || c = '-' || c = '_') then
    some (.word (String.ofList word), text.dropWhile isWordChar)
  else none

/-- The integer that hexadecimal digits stand for, or their source text if it is too large. -/
def hexadecimal (negative : Bool) (digits : List Char) (source : String) : Json :=
  match Quoted.hexNumber? 0 digits with
  | some n =>
    if n < 0x8000000000000000 then .number (.int (if negative then -n else n))
    else .string source
  | none => .string source

/-- The characters of a text that precede its end. -/
def consumed (text rest : List Char) : String :=
  String.ofList (text.take (text.length - rest.length))

/-- Whether a character is a hexadecimal digit. -/
def isHexDigit (c : Char) : Bool := (Quoted.hexValue? c).isSome

/-- Reads a number after its sign, where `source` is the sign as it was written. A decimal number
that is too large stands for its source text. -/
def number? (negative : Bool) (source : String) (text : List Char) :
    Option (Token × List Char) :=
  match text with
  | '0' :: x :: digits =>
    if x = 'x' ∨ x = 'X' then
      let rest := digits.dropWhile isHexDigit
      let digits := digits.takeWhile isHexDigit
      let source := source ++ String.ofList ('0' :: x :: digits)
      if digits.isEmpty then none
      else some (.number (hexadecimal negative digits source) source, rest)
    else decimal
  | _ => decimal
where
  /-- Reads a decimal number. -/
  decimal : Option (Token × List Char) := do
    let (literal, rest) ← NumberLiteral.unsigned? negative text
    let source := source ++ consumed text rest
    let value :=
      match literal.value? with
      | some n => .number n
      | none => .string source
    return (.number value source, rest)

/-- Reads a string after its opening quote. -/
def string? (quote : Char) (text : List Char) : Option (Token × List Char) := do
  let (raw, rest) ← Quoted.split quote [] text
  let content ← Quoted.decode? quote raw
  return (.string content, rest)

/-- Reads the token at the front of a text. -/
def next? (c : Char) (rest : List Char) : Option (Token × List Char) :=
  if Token.isMark c then some (.mark c, rest)
  else if c = '"' ∨ c = '\'' then string? c rest
  else if c = '-' then number? true "-" rest
  else if c = '+' then number? false "+" rest
  else if c.isDigit then number? false "" (c :: rest)
  else
    match constant? (c :: rest) with
    | some (value, rest) => some (.constant value, rest)
    | none => word? c rest

/-! ## Each part leaves less than it was given -/

theorem length_afterComment? {text rest : List Char} :
    afterComment? text = some rest → rest.length < text.length := by
  fun_induction afterComment? text with
  | case1 => intro h; cases h; simp only [List.length_cons]; omega
  | case2 _ _ _ ih => intro h; have := ih h; simp only [List.length_cons]; omega
  | case3 => simp

theorem length_constant? {text rest : List Char} {j : Json}
    (h : constant? text = some (j, rest)) : rest.length < text.length := by
  unfold constant? at h
  split at h <;> (try split at h) <;> simp at h <;> (simp [← h.2]; omega)

theorem length_word? {c : Char} {text rest : List Char} {t : Token}
    (h : word? c text = some (t, rest)) : rest.length ≤ text.length := by
  unfold word? at h
  dsimp only at h
  split at h
  · simp at h
    exact h.2 ▸ (List.dropWhile_suffix _).length_le
  · simp at h

theorem length_decimal {negative : Bool} {source : String} {text rest : List Char} {t : Token}
    (h : number?.decimal negative source text = some (t, rest)) : rest.length < text.length := by
  simp only [number?.decimal, Option.bind_eq_bind, Option.bind_eq_some_iff, Prod.exists] at h
  obtain ⟨_, r, hr, h⟩ := h
  simp at h
  exact h.2 ▸ NumberLiteral.length_unsigned? hr

theorem length_number? {negative : Bool} {source : String} {text rest : List Char} {t : Token}
    (h : number? negative source text = some (t, rest)) : rest.length < text.length := by
  unfold number? at h
  split at h
  · rename_i x digits
    split at h
    · dsimp only at h
      split at h
      · simp at h
      · simp at h
        have : (digits.dropWhile isHexDigit).length ≤ digits.length :=
          (List.dropWhile_suffix _).length_le
        simp [← h.2]; omega
    · exact length_decimal h
  · exact length_decimal h

theorem length_string? {quote : Char} {text rest : List Char} {t : Token}
    (h : string? quote text = some (t, rest)) : rest.length < text.length := by
  simp only [string?, Option.bind_eq_bind, Option.bind_eq_some_iff, Prod.exists] at h
  obtain ⟨_, r, hr, _, _, h⟩ := h
  simp at h
  exact h.2 ▸ Quoted.length_split hr

theorem length_next? {c : Char} {text rest : List Char} {t : Token}
    (h : next? c text = some (t, rest)) : rest.length < text.length + 1 := by
  unfold next? at h
  split at h
  · simp at h; simp [h.2]
  · split at h
    · have := length_string? h; omega
    · split at h
      · have := length_number? h; omega
      · split at h
        · have := length_number? h; omega
        · split at h
          · have := length_number? h; simpa using this
          · split at h
            · rename_i hc
              simp at h
              have := length_constant? hc
              simpa [h.2] using this
            · have := length_word? h; omega

/-- Divides a text into its tokens, put after `before` in reverse. -/
def all? (before : List Token) (text : List Char) : Option (List Token) :=
  match text with
  | [] => some before.reverse
  | '/' :: '/' :: rest => all? before (rest.dropWhile (· ≠ '\n'))
  | '/' :: '*' :: rest =>
    match _h : afterComment? rest with
    | none => none
    | some rest => all? before rest
  | c :: rest =>
    if Text.isBlank c then all? before rest
    else
      match _h : next? c rest with
      | none => none
      | some (t, rest) => all? (t :: before) rest
termination_by text.length
decreasing_by
  · have : (rest.dropWhile (· ≠ '\n')).length ≤ rest.length := (List.dropWhile_suffix _).length_le
    simp only [List.length_cons]
    omega
  · have := length_afterComment? ‹_›
    simp only [List.length_cons]
    omega
  · simp
  · exact length_next? ‹_›

end SyntaxWalk.Jsonc
