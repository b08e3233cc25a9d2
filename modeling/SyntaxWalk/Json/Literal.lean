/-
Number literals: an optional sign, a whole part without needless zeros, and optionally a fraction
and an exponent. A literal of neither is an integer if 64 bits hold it. Any other literal is a
floating point number, scaled from as many leading digits as 64 bits hold; one too large for that
has no value.
-/
import SyntaxWalk.Number.Scaling
import SyntaxWalk.Number.Text

namespace SyntaxWalk

/-- A decimal number as it was written. -/
structure NumberLiteral where
  negative : Bool
  whole : List Char
  fraction : Option (List Char)
  exponent : Option Int

namespace NumberLiteral

/-- The number that decimal digits stand for. -/
def decimal (digits : List Char) : Nat :=
  digits.foldl (fun n c => 10 * n + (c.toNat - '0'.toNat)) 0

/-- The digits in front, and what follows them. -/
def digits (text : List Char) : List Char × List Char :=
  (text.takeWhile Char.isDigit, text.dropWhile Char.isDigit)

/-- Reads the whole part: a lone zero, or digits that start with another one. -/
def whole? : List Char → Option (List Char × List Char)
  | '0' :: rest => some (['0'], rest)
  | c :: rest =>
    if c.isDigit then
      let (more, rest) := digits rest
      some (c :: more, rest)
    else none
  | [] => none

/-- Reads the fraction, if a point stands in front; it has at least one digit. -/
def fraction? : List Char → Option (Option (List Char) × List Char)
  | '.' :: rest =>
    match digits rest with
    | ([], _) => none
    | (fraction, rest) => some (some fraction, rest)
  | text => some (none, text)

/-- Reads the sign of an exponent. -/
def sign : List Char → Bool × List Char
  | '-' :: rest => (true, rest)
  | '+' :: rest => (false, rest)
  | text => (false, text)

/-- Reads the exponent, if its mark stands in front; it has at least one digit. -/
def exponent? : List Char → Option (Option Int × List Char)
  | c :: rest =>
    if c = 'e' ∨ c = 'E' then
      let (negative, rest) := sign rest
      match digits rest with
      | ([], _) => none
      | (power, rest) => some (some (if negative then -decimal power else decimal power), rest)
    else some (none, c :: rest)
  | [] => some (none, [])

/-- Reads a literal after its sign, and gives what follows it. -/
def unsigned? (negative : Bool) (text : List Char) : Option (NumberLiteral × List Char) := do
  let (whole, rest) ← whole? text
  let (fraction, rest) ← fraction? rest
  let (exponent, rest) ← exponent? rest
  return (⟨negative, whole, fraction, exponent⟩, rest)

/-- Whether an integer is among those that 64 bits hold, signed or not. -/
def fits (n : Int) : Bool := -0x8000000000000000 ≤ n && n < 0x10000000000000000

/-- Appends digits to a number as long as 64 bits hold it, and gives the digits that are left. -/
def absorb : Nat → List Char → Nat × List Char
  | n, [] => (n, [])
  | n, c :: rest =>
    let next := 10 * n + (c.toNat - '0'.toNat)
    if next < 0x10000000000000000 then absorb next rest else (n, c :: rest)

/-- The leading digits of a literal, with the power of ten that belongs to them. Digits of the whole
part that are left out still count for the power. -/
def leading (l : NumberLiteral) : Decimal :=
  let fraction := l.fraction.getD []
  let (whole, beyond) := absorb 0 l.whole
  let (digits, unread) := absorb whole fraction
  ⟨digits, l.exponent.getD 0 + beyond.length - fraction.length + unread.length⟩

/-- The number that a literal stands for. A negative zero is a floating point number. -/
def value? (l : NumberLiteral) : Option Number :=
  let n : Int := if l.negative then -decimal l.whole else decimal l.whole
  if l.fraction.isNone ∧ l.exponent.isNone ∧ fits n ∧ ¬ (l.negative ∧ n = 0) then some (.int n)
  else
    .float <$> Binary64.ofScaled? l.negative l.leading.digits l.leading.exponent

/-! ## Each part leaves no more than it was given -/

theorem length_digits (text : List Char) : (digits text).2.length ≤ text.length :=
  (List.dropWhile_suffix _).length_le

theorem length_whole? {text a rest : List Char} (h : whole? text = some (a, rest)) :
    rest.length < text.length := by
  unfold whole? at h
  split at h
  · simp at h; simp [h.2]
  · split at h
    · rename_i c r _ _
      have := length_digits r
      simp at h; simp [← h.2]; omega
    · simp at h
  · simp at h

theorem length_fraction? {text rest : List Char} {a : Option (List Char)}
    (h : fraction? text = some (a, rest)) : rest.length ≤ text.length := by
  unfold fraction? at h
  split at h
  · rename_i r
    have := length_digits r
    split at h
    · simp at h
    · rename_i hd; simp [hd] at this; simp at h; simp [← h.2]; omega
  · simp at h; simp [h.2]

theorem length_sign (text : List Char) : (sign text).2.length ≤ text.length := by
  unfold sign; split <;> simp

theorem length_exponent? {text rest : List Char} {a : Option Int}
    (h : exponent? text = some (a, rest)) : rest.length ≤ text.length := by
  unfold exponent? at h
  split at h
  · rename_i c r
    split at h
    · have hs := length_sign r
      have hd := length_digits (sign r).2
      dsimp only at h
      split at h
      · simp at h
      · rename_i heq; simp [heq] at hd; simp at h; simp [← h.2]; omega
    · simp at h; simp [h.2]
  · simp at h; simp [h.2]

theorem length_unsigned? {negative : Bool} {text rest : List Char} {l : NumberLiteral}
    (h : unsigned? negative text = some (l, rest)) : rest.length < text.length := by
  simp only [unsigned?, Option.bind_eq_bind, Option.bind_eq_some_iff, Prod.exists] at h
  obtain ⟨_, r1, h1, _, r2, h2, _, r3, h3, h⟩ := h
  have := length_whole? h1
  have := length_fraction? h2
  have := length_exponent? h3
  simp at h
  simp only [← h.2]
  omega

end NumberLiteral

end SyntaxWalk
