/-
Binary floating point numbers of 64 bits, by their bits, and the rounding of an exact decimal to
the nearest of them.
-/
import SyntaxWalk.Number.Ratio

namespace SyntaxWalk

/-- A binary floating point number of 64 bits: sign, eleven bits of exponent, 52 of fraction. -/
structure Binary64 where
  bits : UInt64
deriving DecidableEq, Inhabited

namespace Binary64

/-- The first number that the fraction cannot hold: two to the power 52. -/
def fractionLimit : Nat := 0x10000000000000

/-- The exponent field of infinities and of what is not a number. -/
def exponentLimit : Nat := 2047

/-- Whether the sign is minus, also that of zero. -/
def isNegative (x : Binary64) : Bool := x.bits >>> 63 == 1

/-- The exponent as it is stored. -/
def exponentField (x : Binary64) : Nat := ((x.bits >>> 52) &&& 0x7FF).toNat

/-- The fraction as it is stored. -/
def fraction (x : Binary64) : Nat := (x.bits &&& 0xFFFFFFFFFFFFF).toNat

/-- The significand of a finite number, whose magnitude is the significand times two to the power
`power`. -/
def significand (x : Binary64) : Nat :=
  if x.exponentField = 0 then x.fraction else x.fraction + fractionLimit

/-- The power of two that belongs to the significand of a finite number. -/
def power (x : Binary64) : Int :=
  if x.exponentField = 0 then -1074 else x.exponentField - 1075

/-- Whether a number is neither an infinity nor what is not a number. -/
def isFinite (x : Binary64) : Bool := x.exponentField < exponentLimit

/-- The number with the given sign and magnitude bits. -/
def ofMagnitude (negative : Bool) (magnitude : Nat) : Binary64 :=
  ⟨(if negative then 0x8000000000000000 else 0) ||| magnitude.toUInt64⟩

/-- The magnitude bits of infinity. -/
def infiniteMagnitude : Nat := exponentLimit * fractionLimit

/-- The number nearest to `num / den`; nothing if that is beyond the greatest finite one. A
significand of 53 bits and its power are put together by one addition, so a significand that is
rounded up to 54 bits carries into the exponent. -/
def ofRatio? (negative : Bool) (num den : Nat) : Option Binary64 :=
  if num = 0 then some (ofMagnitude negative 0)
  else
    let power := max (Ratio.log2 num den - 52) (-1074)
    let rounded := Ratio.round (num * Ratio.powDen 2 power) (den * Ratio.powNum 2 power)
    let magnitude := (power + 1074).toNat * fractionLimit + rounded
    if magnitude < infiniteMagnitude then some (ofMagnitude negative magnitude) else none

/-- The number nearest to `digits` times ten to the power `exponent`; nothing if that is beyond the
greatest finite one. Decimals far outside the range are told by their number of digits alone. -/
def ofDecimal? (negative : Bool) (digits : Nat) (exponent : Int) : Option Binary64 :=
  let leading : Int := Ratio.digitCount digits + exponent
  if digits = 0 ∨ leading < -330 then some (ofMagnitude negative 0)
  else if 310 < leading then none
  else ofRatio? negative (digits * Ratio.powNum 10 exponent) (Ratio.powDen 10 exponent)

end Binary64

end SyntaxWalk
