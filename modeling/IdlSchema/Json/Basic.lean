/-!
# JSON values

A value keeps what its text says: the fields of an object in order, repeated keys included, and
each number digit by digit.  How many arrays and objects enclose one another is its depth.  A string
may escape half a character, and then it is no text; nothing is kept of such a string, nor of an
object with such a key.
-/

namespace IdlSchema
namespace Json

/-- A number as it is written. -/
structure Numeral where
  negative : Bool
  whole : Nat
  /-- The digits behind the point; there is no point without one. -/
  fraction : List Nat
  exponent : Option Int
  deriving DecidableEq

end Json

/-- A JSON value. -/
inductive Json where
  | null
  | bool (value : Bool)
  | number (numeral : Json.Numeral)
  | string (text : String)
  | array (items : List Json)
  | object (fields : List (String × Json))
  /-- A string, or an object with a key, that is no text. -/
  | illFormed
  deriving Inhabited

namespace Json

mutual

/-- The largest number of arrays and objects that enclose one another in a value. -/
def depth : Json → Nat
  | .array items => 1 + depthOfItems items
  | .object fields => 1 + depthOfFields fields
  | _ => 0

/-- The largest depth among the items of an array. -/
def depthOfItems : List Json → Nat
  | [] => 0
  | item :: items => max item.depth (depthOfItems items)

/-- The largest depth among the values of an object. -/
def depthOfFields : List (String × Json) → Nat
  | [] => 0
  | (_, value) :: fields => max value.depth (depthOfFields fields)

end

namespace Numeral

/-- The numeral of an integer. -/
def ofInt (i : Int) : Numeral :=
  { negative := i < 0, whole := i.natAbs, fraction := [], exponent := none }

/-- Whether there is neither a point nor an exponent. -/
def integral (numeral : Numeral) : Bool :=
  numeral.fraction.isEmpty && numeral.exponent.isNone

/-- The integer that a numeral denotes; a point, an exponent or a negative zero is none. -/
def integer? (numeral : Numeral) : Option Int :=
  if !numeral.integral then none
  else if !numeral.negative then some numeral.whole
  else if numeral.whole = 0 then none
  else some (-numeral.whole)

@[simp]
theorem integer?_ofInt (i : Int) : (ofInt i).integer? = some i := by
  by_cases sign : i < 0
  · have magnitude : i.natAbs ≠ 0 := by omega
    have value : -(i.natAbs : Int) = i := by omega
    simp only [integer?, ofInt, integral, sign, magnitude, value, decide_true, List.isEmpty_nil,
      Option.isNone_none, Bool.and_self, Bool.not_true, Bool.false_eq_true, if_false]
  · have value : (i.natAbs : Int) = i := by omega
    simp only [integer?, ofInt, integral, sign, value, decide_false, List.isEmpty_nil,
      Option.isNone_none, Bool.and_self, Bool.not_true, Bool.not_false, Bool.false_eq_true,
      if_false, if_true]

end Numeral

/-- An integer as a value. -/
def int (i : Int) : Json :=
  .number (.ofInt i)

/-- A natural number as a value. -/
def nat (n : Nat) : Json :=
  int n

/-- The text of a value that is a string. -/
def string? : Json → Option String
  | .string text => some text
  | _ => none

/-- The truth value of a value that has one. -/
def bool? : Json → Option Bool
  | .bool value => some value
  | _ => none

/-- The integer of a value that is written as one. -/
def integer? : Json → Option Int
  | .number numeral => numeral.integer?
  | _ => none

/-- The integer of a value, if it lies between two bounds. -/
def integerBetween? (low high : Int) (json : Json) : Option Int :=
  json.integer?.filter fun i => low ≤ i && i ≤ high

/-- The items of a value that is an array. -/
def items? : Json → Option (List Json)
  | .array items => some items
  | _ => none

/-- The value of the first field of an object with a key. -/
def field? (json : Json) (key : String) : Option Json :=
  match json with
  | .object fields => fields.lookup key
  | _ => none

end Json
end IdlSchema
