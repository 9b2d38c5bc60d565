import IdlSchema.Decimal.Shortest

/-!
# How a decimal is laid out

A decimal is written positionally when the exponent of its leading digit lies in a given range,
and otherwise with one digit before the point and an exponent.  A layout fixes that range and the
mark and sign of the exponent, and which of two equally near decimals is written.
-/

namespace IdlSchema
namespace Decimal

/-- The choices that turn digits and an exponent into text. -/
structure Layout where
  /-- The smallest exponent of the leading digit that is written positionally. -/
  positionalFrom : Int
  /-- The largest exponent of the leading digit that is written positionally. -/
  positionalTo : Int
  /-- What stands before a positive exponent. -/
  positiveSign : String
  /-- Which of two shortest decimals is written when both are equally near. -/
  tie : Tie

/-- The written parts of a decimal: what stands before the point, behind it, and as exponent. -/
structure Parts where
  whole : List Char
  fraction : List Char
  exponent : Option Int
  deriving DecidableEq

namespace Layout

/-- The parts of a decimal; a positional one has at least one digit on each side of the point. -/
def parts (layout : Layout) (decimal : Decimal) : Parts :=
  let digits := Nat.toDigits 10 decimal.digits
  let leading : Int := decimal.exponent + digits.length - 1
  if layout.positionalFrom ≤ leading && leading ≤ layout.positionalTo then
    if leading < 0 then
      { whole := ['0']
        fraction := List.replicate (-leading - 1).toNat '0' ++ digits
        exponent := none }
    else
      let wholeCount := leading.toNat + 1
      let fraction := digits.drop wholeCount
      { whole := digits.take wholeCount ++ List.replicate (wholeCount - digits.length) '0'
        fraction := if fraction.isEmpty then ['0'] else fraction
        exponent := none }
  else
    { whole := digits.take 1, fraction := digits.drop 1, exponent := some leading }

/-- The text of an exponent. -/
def exponentText (layout : Layout) (exponent : Int) : String :=
  if exponent < 0 then "e-" ++ toString exponent.natAbs
  else "e" ++ layout.positiveSign ++ toString exponent.natAbs

/-- The text of a decimal without its sign. -/
def text (layout : Layout) (decimal : Decimal) : String :=
  let parts := layout.parts decimal
  let fraction := if parts.fraction.isEmpty then "" else "." ++ String.ofList parts.fraction
  String.ofList parts.whole ++ fraction ++ (parts.exponent.map layout.exponentText).getD ""

/-- The text of a float: its shortest decimal in the given layout. -/
def floatText (layout : Layout) (x : Float) : String :=
  let sign := if negative x then "-" else ""
  match magnitude x with
  | .zero => sign ++ "0.0"
  | .finite mantissa exponent narrowBelow =>
      sign ++ layout.text (ofMagnitude layout.tie mantissa exponent narrowBelow)
  | .infinite => sign ++ "inf"
  | .notANumber => "NaN"

end Layout
end Decimal
end IdlSchema
