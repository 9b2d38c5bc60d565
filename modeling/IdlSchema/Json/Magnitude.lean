import IdlSchema.Decimal.Layout
import IdlSchema.Json.Basic

/-!
# Numerals and floats

A float is written as its shortest decimal.  A numeral is read with a significand of 64 bits:
digits that no longer fit count as zeros before the point and are dropped behind it.  The
significand is then multiplied by one power of ten or divided by one, so the result can differ
from the nearest float in its last place when the significand or the power is not exact.
-/

namespace IdlSchema
namespace Json
namespace Numeral

/-- The largest significand. -/
def significandLimit : Nat := UInt64.size - 1

/-- Appends digits before the point; those that do not fit raise the exponent. -/
def takeWhole : Nat → Int → List Nat → Nat × Int
  | significand, exponent, [] => (significand, exponent)
  | significand, exponent, digit :: digits =>
      if 10 * significand + digit ≤ significandLimit then
        takeWhole (10 * significand + digit) exponent digits
      else (significand, exponent + (digits.length + 1))

/-- Appends digits behind the point, each lowering the exponent, up to the first that does not fit. -/
def takeFraction : Nat → Int → List Nat → Nat × Int
  | significand, exponent, [] => (significand, exponent)
  | significand, exponent, digit :: digits =>
      if 10 * significand + digit ≤ significandLimit then
        takeFraction (10 * significand + digit) (exponent - 1) digits
      else (significand, exponent)

/-- The decimal digits of a natural number. -/
def digitsOf (n : Nat) : List Nat :=
  (Nat.toDigits 10 n).map fun c => c.toNat - '0'.toNat

/-- The significand and the power of ten of a numeral. -/
def significand (numeral : Numeral) : Nat × Int :=
  let (whole, exponent) := takeWhole 0 0 (digitsOf numeral.whole)
  let (significand, exponent) := takeFraction whole exponent numeral.fraction
  (significand, exponent + numeral.exponent.getD 0)

/-- The float nearest to a power of ten. -/
def powerOfTen (exponent : Nat) : Float :=
  Float.ofScientific 1 false exponent

/-- The largest exponent whose power of ten is a float. -/
def largestPower : Nat := 308

/--
Divides by a power of ten in steps of the largest one; after `steps` steps every significand has
become zero.
-/
def divide (x : Float) (exponent : Nat) : Nat → Float
  | 0 => x
  | steps + 1 =>
      if exponent ≤ largestPower then x / powerOfTen exponent
      else if x == 0.0 then x
      else divide (x / powerOfTen largestPower) (exponent - largestPower) steps

/-- A significand times a power of ten, unless that is too large for a float. -/
def scale (significand : Nat) (exponent : Int) : Option Float :=
  let x := Float.ofNat significand
  if exponent = 0 then some x
  else if exponent < 0 then some (divide x exponent.natAbs 4)
  else if exponent ≤ largestPower then
    let product := x * powerOfTen exponent.natAbs
    if product.isInf then none else some product
  else if significand = 0 then some x
  else none

/-- The float that a numeral denotes, unless it is too large. -/
def toFloat? (numeral : Numeral) : Option Float :=
  let (significand, exponent) := numeral.significand
  (scale significand exponent).map fun x => if numeral.negative then -x else x

/--
Floats in JSON are positional below `10 ^ 16` and down to `10 ^ -5`, exponents have a sign, and of
two equally near decimals that with an even last digit is written.
-/
def floatLayout : Decimal.Layout :=
  { positionalFrom := -5, positionalTo := 15, positiveSign := "+", tie := .toEven }

/-- The numeral with the given sign and parts. -/
def ofParts (negative : Bool) (parts : Decimal.Parts) : Numeral :=
  let digit (c : Char) : Nat := c.toNat - '0'.toNat
  { negative
    whole := parts.whole.foldl (fun n c => 10 * n + digit c) 0
    fraction := parts.fraction.map digit
    exponent := parts.exponent }

/-- The numeral of a float, unless it is infinite or not a number. -/
def ofFloat? (x : Float) : Option Numeral :=
  match Decimal.magnitude x with
  | .zero =>
      some { negative := Decimal.negative x, whole := 0, fraction := [0], exponent := none }
  | .finite mantissa exponent narrowBelow =>
      let decimal := Decimal.ofMagnitude floatLayout.tie mantissa exponent narrowBelow
      some (ofParts (Decimal.negative x) (floatLayout.parts decimal))
  | _ => none

end Numeral

/-- A float as a value; what is not a number or infinite has no numeral and is null. -/
def float (x : Float) : Json :=
  match Numeral.ofFloat? x with
  | some numeral => .number numeral
  | none => .null

/-- The float of a value that is a number. -/
def float? : Json → Option Float
  | .number numeral => numeral.toFloat?
  | _ => none

end Json
end IdlSchema
