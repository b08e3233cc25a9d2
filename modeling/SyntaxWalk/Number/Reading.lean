/-
Reading a floating point number from a text of its own: an optional sign, digits with or without a
point among them, and an optional exponent; or the name of an infinity, or of what is not a number,
in letters of either case.
-/
import SyntaxWalk.Json.Literal

namespace SyntaxWalk.Binary64

/-- Infinity of the given sign. -/
def infinity (negative : Bool) : Binary64 := ofMagnitude negative infiniteMagnitude

/-- What is not a number. -/
def notANumber : Binary64 := ofMagnitude false (infiniteMagnitude + fractionLimit / 2)

/-- Reads digits with at most one point among them, and an exponent. -/
def unsigned? (negative : Bool) (text : List Char) : Option Binary64 := do
  let (whole, rest) := NumberLiteral.digits text
  let (fraction, rest) :=
    match rest with
    | '.' :: rest => NumberLiteral.digits rest
    | rest => ([], rest)
  if whole.isEmpty ∧ fraction.isEmpty then none
  else
    let (exponent, rest) ← NumberLiteral.exponent? rest
    if rest.isEmpty then
      let digits := NumberLiteral.decimal (whole ++ fraction)
      let power := exponent.getD 0 - fraction.length
      some ((ofDecimal? negative digits power).getD (infinity negative))
    else none

/-- Reads a floating point number; one that is too large is an infinity. -/
def read? (text : String) : Option Binary64 :=
  let (negative, rest) := NumberLiteral.sign text.toList
  let name := String.ofList (rest.map Char.toLower)
  if name = "inf" ∨ name = "infinity" then some (infinity negative)
  else if name = "nan" then some notANumber
  else unsigned? negative rest

end SyntaxWalk.Binary64
