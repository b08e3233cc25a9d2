/-
Decimals by scaling. The digits of a decimal are rounded to a floating point number, and this is
multiplied or divided by a power of ten that is rounded too. With a rounding at each step the result
may be a neighbour of the number that is nearest to the decimal.
-/
import SyntaxWalk.Number.Binary64

namespace SyntaxWalk.Binary64

/-- The magnitude of a finite number is `numerator / denominator`. -/
def numerator (x : Binary64) : Nat := x.significand * Ratio.powNum 2 x.power

@[inherit_doc numerator]
def denominator (x : Binary64) : Nat := Ratio.powDen 2 x.power

/-- The number nearest to a product of finite numbers; nothing if that is beyond the greatest finite
one. -/
def mul? (x y : Binary64) : Option Binary64 :=
  ofRatio? (x.isNegative != y.isNegative) (x.numerator * y.numerator)
    (x.denominator * y.denominator)

/-- The number nearest to a quotient of finite numbers, of which the second is not zero; nothing if
that is beyond the greatest finite one. -/
def div? (x y : Binary64) : Option Binary64 :=
  ofRatio? (x.isNegative != y.isNegative) (x.numerator * y.denominator)
    (x.denominator * y.numerator)

/-- The greatest `n` such that ten to the power `n` rounds to a finite number. -/
def greatestTen : Nat := 308

/-- The number nearest to ten to the power `n`, for `n` up to `greatestTen`. -/
def ten? (n : Nat) : Option Binary64 := ofRatio? false (Nat.pow 10 n) 1

/-- A number multiplied by ten to the power `n`. -/
def scaleUp? (x : Binary64) (n : Nat) : Option Binary64 := do
  if x.significand = 0 then some x
  else if n ≤ greatestTen then x.mul? (← ten? n)
  else none

/-- A number divided by ten to the power `n`. A power that is too great is taken apart. -/
def scaleDown? (x : Binary64) (n : Nat) : Option Binary64 := do
  if x.significand = 0 then some x
  else if n ≤ greatestTen then x.div? (← ten? n)
  else scaleDown? (← x.div? (← ten? greatestTen)) (n - greatestTen)
termination_by n
decreasing_by simp only [greatestTen] at *; omega

/-- The number for `digits` times ten to the power `exponent`; nothing if that is beyond the
greatest finite one. -/
def ofScaled? (negative : Bool) (digits : Nat) (exponent : Int) : Option Binary64 := do
  let x ← ofRatio? negative digits 1
  if exponent < 0 then x.scaleDown? (-exponent).toNat else x.scaleUp? exponent.toNat

end SyntaxWalk.Binary64
