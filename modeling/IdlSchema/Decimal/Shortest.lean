/-!
# The shortest decimal that reads back

A finite binary fraction is the nearest one to every decimal in an interval around it.  Its
shortest decimal is the one in that interval with the fewest digits and, among those, the
nearest to the fraction itself; of two that are equally near a rule for ties takes one.  The search is
exact: it works on quotients of natural numbers.
-/

namespace IdlSchema

/-- The decimal number `digits * 10 ^ exponent`. -/
structure Decimal where
  digits : Nat
  exponent : Int
  deriving DecidableEq

namespace Decimal

/-- Which of two neighbours is taken when both are equally near. -/
inductive Tie where
  /-- The one with an even last digit. -/
  | toEven
  /-- The larger one. -/
  | up
  deriving DecidableEq

namespace Tie

/-- The one of a number and its successor that is taken. -/
def pick (tie : Tie) (below : Nat) : Nat :=
  match tie with
  | toEven => if below % 2 = 0 then below else below + 1
  | up => below + 1

theorem pick_toEven_mod_two (below : Nat) : toEven.pick below % 2 = 0 := by
  by_cases even : below % 2 = 0
  · simp [pick, even]
  · simp only [pick, even, if_false]
    omega

end Tie

/-- A positive quotient of natural numbers with the interval of the numbers that round to it. -/
structure Interval where
  low : Nat
  value : Nat
  high : Nat
  denominator : Nat
  closed : Bool

namespace Interval

/-- Whether the interval holds the quotient `numerator / interval.denominator`. -/
def holds (interval : Interval) (numerator : Nat) : Bool :=
  if interval.closed then interval.low ≤ numerator && numerator ≤ interval.high
  else interval.low < numerator && numerator < interval.high

/-- The same interval with all its numbers over another denominator. -/
def scale (interval : Interval) (factor : Nat) : Interval :=
  { interval with
    low := interval.low * factor
    value := interval.value * factor
    high := interval.high * factor }

/--
The multiple of `step` nearest to the value, if one of its two neighbours on that grid lies in the
interval.
-/
def nearestOnGrid? (interval : Interval) (tie : Tie) (step : Nat) : Option Nat :=
  let below := interval.value / step
  let above := below + 1
  match interval.holds (below * step), interval.holds (above * step) with
  | false, false => none
  | true, false => some below
  | false, true => some above
  | true, true =>
      let toBelow := interval.value - below * step
      let toAbove := above * step - interval.value
      if toBelow < toAbove then some below
      else if toAbove < toBelow then some above
      else some (tie.pick below)

/--
The first hit on the grids `10 ^ exponent`, `10 ^ (exponent - 1)` and so on, for at most
`count` of them.
-/
def search (interval : Interval) (tie : Tie) : Nat → Int → Option Decimal
  | 0, _ => none
  | count + 1, exponent =>
      let scaled := interval.scale (Nat.pow 10 (-exponent).toNat)
      match scaled.nearestOnGrid? tie (interval.denominator * Nat.pow 10 exponent.toNat) with
      | some digits => some { digits, exponent }
      | none => search interval tie count (exponent - 1)

end Interval

/-- The number of decimal digits of a natural number. -/
def digitCount (n : Nat) : Nat :=
  (Nat.toDigits 10 n).length

/-- The interval of the numbers that round to `mantissa * 2 ^ exponent`, for a positive mantissa. -/
def intervalOf (mantissa : Nat) (exponent : Int) (narrowBelow : Bool) : Interval :=
  let up := Nat.pow 2 exponent.toNat
  { low := (4 * mantissa - (if narrowBelow then 1 else 2)) * up
    value := 4 * mantissa * up
    high := (4 * mantissa + 2) * up
    denominator := 4 * Nat.pow 2 (-exponent).toNat
    closed := mantissa % 2 = 0 }

/-- The shortest decimal in an interval; eighteen grids hold one for every binary fraction. -/
def shortest (tie : Tie) (interval : Interval) : Decimal :=
  let start : Int := digitCount interval.high - digitCount interval.denominator + 1
  (interval.search tie 20 start).getD { digits := 0, exponent := 0 }

/-- A float seen as a sign and, unless it is infinite or not a number, a magnitude. -/
inductive Magnitude where
  | zero
  | finite (mantissa : Nat) (exponent : Int) (narrowBelow : Bool)
  | infinite
  | notANumber
  deriving DecidableEq

/-- The value of the sign bit among the bits of a float. -/
def signBit : Nat := 0x8000000000000000

/-- The value of the exponent's lowest bit, which is the leading bit of a normal mantissa too. -/
def leadingBit : Nat := 0x10000000000000

/-- Whether the sign bit is set. -/
def negative (x : Float) : Bool :=
  signBit ≤ x.toBits.toNat

/-- The magnitude of a float, read from its bits. -/
def magnitude (x : Float) : Magnitude :=
  let bits : Nat := x.toBits.toNat % signBit
  let biased : Nat := bits / leadingBit
  let fraction : Nat := bits % leadingBit
  if biased = 2047 then
    if fraction = 0 then .infinite else .notANumber
  else if biased = 0 then
    if fraction = 0 then .zero else .finite fraction (-1074) false
  else .finite (leadingBit + fraction) ((biased : Int) - 1075) (fraction = 0 && biased != 1)

/-- The shortest decimal of a finite magnitude. -/
def ofMagnitude (tie : Tie) (mantissa : Nat) (exponent : Int) (narrowBelow : Bool) :
    Decimal :=
  shortest tie (intervalOf mantissa exponent narrowBelow)

end Decimal
end IdlSchema
