/-
Ratios of natural numbers: powers with an exponent of either sign as ratios, logarithms and
rounding. All arithmetic is exact.
-/

namespace SyntaxWalk.Ratio

/-- The numerator of a power. -/
def powNum (base : Nat) (e : Int) : Nat := Nat.pow base e.toNat

/-- The denominator of a power. -/
def powDen (base : Nat) (e : Int) : Nat := Nat.pow base (-e).toNat

/-- The greatest `e` such that `base` to the power `e` is at most `num / den`, given a `guess` that
is either right or one too large. -/
def floorLog (base : Nat) (guess : Int) (num den : Nat) : Int :=
  if den * powNum base guess ≤ num * powDen base guess then guess else guess - 1

/-- The binary logarithm of a positive ratio, rounded down. -/
def log2 (num den : Nat) : Int := floorLog 2 (num.log2 - den.log2) num den

/-- The number of decimal digits. -/
def digitCount (n : Nat) : Nat := (Nat.toDigits 10 n).length

/-- The decimal logarithm of a positive ratio, rounded down. -/
def log10 (num den : Nat) : Int := floorLog 10 (digitCount num - digitCount den) num den

/-- The integer nearest to a ratio, a half going to the even one. -/
def round (num den : Nat) : Nat :=
  let floor := num / den
  let twice := 2 * (num % den)
  if twice < den then floor
  else if den < twice then floor + 1
  else floor + floor % 2

end SyntaxWalk.Ratio
