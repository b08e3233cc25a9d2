/-
The shortest decimal that reads back as a given binary number. The reals that round to the number
form an interval, closed iff its significand is even. The digit counts 1, 2, … are tried in turn:
of the multiples of the power of ten that belongs to a count, only the two around the number can be
the nearest in the interval, and the first count with one of them inside it wins.
-/
import SyntaxWalk.Number.Binary64

namespace SyntaxWalk

/-- The exact decimal of `digits` times ten to the power `exponent`. -/
structure Decimal where
  digits : Nat
  exponent : Int
deriving DecidableEq, Inhabited

namespace Decimal

/-- Moves zeros at the end of the digits into the exponent, at most `count` of them. -/
def stripZeros : Nat → Decimal → Decimal
  | 0, d => d
  | count + 1, d =>
    if d.digits ≠ 0 ∧ d.digits % 10 = 0 then stripZeros count ⟨d.digits / 10, d.exponent + 1⟩ else d

/-- The reals that round to a number, as numerators over one denominator. -/
structure Interval where
  low : Nat
  value : Nat
  high : Nat
  den : Nat
  closed : Bool

namespace Interval

/-- The interval of a positive finite number. Below a power of two the next number is half as far
away as above it. -/
def of (x : Binary64) : Interval :=
  let m := x.significand
  let num := Ratio.powNum 2 (x.power - 2)
  let below := if x.fraction = 0 ∧ 1 < x.exponentField then 1 else 2
  ⟨(4 * m - below) * num, 4 * m * num, (4 * m + 2) * num, Ratio.powDen 2 (x.power - 2), m % 2 = 0⟩

/-- Whether a ratio rounds to the number of the interval. -/
def holds (i : Interval) (num den : Nat) : Bool :=
  if i.closed then i.low * den ≤ num * i.den && num * i.den ≤ i.high * den
  else i.low * den < num * i.den && num * i.den < i.high * den

/-- The decimal nearest to the number among those with their last digit at `exponent`, if one of
the two around the number lies in the interval. Of two equally near ones the even one is taken. -/
def nearest? (i : Interval) (exponent : Int) : Option Decimal :=
  let scale := Ratio.powNum 10 exponent
  let unscale := Ratio.powDen 10 exponent
  let num := i.value * unscale
  let den := i.den * scale
  let floor := num / den
  let twice := 2 * (num % den)
  let up := if twice = den then floor % 2 = 1 else den < twice
  let (first, second) := if up then (floor + 1, floor) else (floor, floor + 1)
  if i.holds (first * scale) unscale then some ⟨first, exponent⟩
  else if i.holds (second * scale) unscale then some ⟨second, exponent⟩
  else none

/-- Tries `rounds` digit counts from `count` on, for a number with its first digit at `leading`. -/
def search (i : Interval) (leading : Int) : Nat → Nat → Decimal
  | 0, _ => ⟨0, 0⟩
  | rounds + 1, count =>
    match i.nearest? (leading - count + 1) with
    | some d => d
    | none => i.search leading rounds (count + 1)

end Interval

/-- The shortest decimal that reads back as the magnitude of a finite number, of these the nearest;
it has no zero at its end. Seventeen digits always suffice. -/
def shortest (x : Binary64) : Decimal :=
  if x.significand = 0 then ⟨0, 0⟩
  else
    let i := Interval.of x
    stripZeros 17 (i.search (Ratio.log10 i.value i.den) 17 1)

end Decimal

end SyntaxWalk
