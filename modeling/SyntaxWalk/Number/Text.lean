/-
Numbers as text. A number is an integer or a binary floating point number, and the two are never
mixed up: a floating point number is written with a point or an exponent.
-/
import SyntaxWalk.Number.Shortest
import SyntaxWalk.Text.Display

namespace SyntaxWalk

/-- A number of a document. -/
inductive Number where
  | int (value : Int)
  | float (value : Binary64)
deriving DecidableEq, Inhabited

/-- How a floating point number is laid out. -/
structure FloatLayout where
  /-- Whether the value with its first digit at `10 ^ e` is written without an exponent. -/
  positional : Int → Bool

namespace FloatLayout

/-- Digits with their first one at `10 ^ leading`, with a point and no exponent. -/
def plain (digits : List Char) (leading : Int) : String :=
  if leading < 0 then "0." ++ Text.fill '0' (-leading - 1).toNat ++ String.ofList digits
  else
    let whole := leading.toNat + 1
    let fraction := digits.drop whole
    Text.padRight '0' whole (String.ofList (digits.take whole)) ++ "." ++
      (if fraction.isEmpty then "0" else String.ofList fraction)

/-- Digits with their first one at `10 ^ leading`, with an exponent. -/
def scientific (digits : List Char) (leading : Int) : String :=
  let mark := if leading < 0 then "e" else "e+"
  String.ofList (digits.take 1) ++
    (if digits.length ≤ 1 then "" else "." ++ String.ofList (digits.drop 1)) ++
    mark ++ toString leading

/-- The text of a finite number. -/
def render (layout : FloatLayout) (x : Binary64) : String :=
  let d := Decimal.shortest x
  let digits := Nat.toDigits 10 d.digits
  let leading : Int := d.exponent + digits.length - 1
  (if x.isNegative then "-" else "") ++
    if layout.positional leading then plain digits leading else scientific digits leading

end FloatLayout

/-- The bits of a floating point number as sixteen hexadecimal digits. -/
def Binary64.hex (x : Binary64) : String := Text.hexDigits 16 x.bits.toNat

end SyntaxWalk
