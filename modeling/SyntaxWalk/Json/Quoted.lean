/-
Quoted text. A quoted text ends at the first quote that no backslash precedes; its content is read
in two steps. Escapes are resolved one by one, an escaped code giving a code unit of sixteen bits,
and then each pair of surrogate units becomes one character. A surrogate without its partner is
refused.
-/

namespace SyntaxWalk.Quoted

/-! ## Where a quoted text ends -/

/-- Splits what follows an opening quote into the raw content, put after `before` in reverse, and
what follows the closing quote. -/
def split (quote : Char) (before : List Char) : List Char → Option (List Char × List Char)
  | [] => none
  | '\\' :: c :: rest => split quote (c :: '\\' :: before) rest
  | c :: rest =>
    if c = quote then some (before.reverse, rest) else split quote (c :: before) rest

theorem length_split {quote : Char} {before text raw rest : List Char} :
    split quote before text = some (raw, rest) → rest.length < text.length := by
  fun_induction split quote before text with
  | case1 => simp
  | case2 before c rest' ih => intro h; have := ih h; simp; omega
  | case3 => intro h; simp at h; simp [h.2]
  | case4 before c rest' _ _ ih => intro h; have := ih h; simp; omega

/-! ## Escapes -/

/-- The value of a hexadecimal digit. -/
def hexValue? (c : Char) : Option Nat :=
  if c.isDigit then some (c.toNat - '0'.toNat)
  else if 'a' ≤ c ∧ c ≤ 'f' then some (c.toNat - 'a'.toNat + 10)
  else if 'A' ≤ c ∧ c ≤ 'F' then some (c.toNat - 'A'.toNat + 10)
  else none

/-- The number that hexadecimal digits stand for, after `high`. -/
def hexNumber? (high : Nat) : List Char → Option Nat
  | [] => some high
  | c :: rest => do hexNumber? (16 * high + (← hexValue? c)) rest

/-- A piece of a quoted text: a character, or a code unit that was written as a number. -/
inductive Piece where
  | char (c : Char)
  | unit (code : Nat)

/-- The character that a backslash and a letter stand for; a quote may be escaped only inside its
own kind of quotes. -/
def escaped? (quote : Char) : Char → Option Char
  | '\\' => some '\\'
  | '/' => some '/'
  | 'b' => some '\x08'
  | 'f' => some '\x0c'
  | 'n' => some '\n'
  | 'r' => some '\r'
  | 't' => some '\t'
  | c => if c = quote then some c else none

/-- Resolves the escapes of raw content, after `before` in reverse. -/
def pieces? (quote : Char) (before : List Piece) : List Char → Option (List Piece)
  | [] => some before.reverse
  | '\\' :: 'u' :: a :: b :: c :: d :: rest => do
    let code ← hexNumber? 0 [a, b, c, d]
    pieces? quote (.unit code :: before) rest
  | '\\' :: e :: rest => do
    let c ← escaped? quote e
    pieces? quote (.char c :: before) rest
  | '\\' :: [] => none
  | c :: rest => pieces? quote (.char c :: before) rest

/-- Whether a code unit is the first of a pair. -/
def isHighSurrogate (code : Nat) : Bool := 0xD800 ≤ code && code < 0xDC00

/-- Whether a code unit is the second of a pair. -/
def isLowSurrogate (code : Nat) : Bool := 0xDC00 ≤ code && code < 0xE000

/-- Joins surrogate pairs, after `before` in reverse. -/
def join? (before : List Char) : List Piece → Option (List Char)
  | [] => some before.reverse
  | .char c :: rest => join? (c :: before) rest
  | .unit high :: .unit low :: rest =>
    if isHighSurrogate high then
      if isLowSurrogate low then
        join? (Char.ofNat (0x10000 + (high - 0xD800) * 0x400 + (low - 0xDC00)) :: before) rest
      else none
    else if isLowSurrogate high then none
    else join? (Char.ofNat high :: before) (.unit low :: rest)
  | .unit code :: rest =>
    if isHighSurrogate code || isLowSurrogate code then none
    else join? (Char.ofNat code :: before) rest

/-- The text that raw content stands for. -/
def decode? (quote : Char) (raw : List Char) : Option String := do
  let pieces ← pieces? quote [] raw
  String.ofList <$> join? [] pieces

end SyntaxWalk.Quoted
