import IdlSchema.Json.Magnitude

/-!
# Values inside others

Arrays and objects enclose one another only up to a limit.  A value comes with the number of them
that may still be entered from it on, its room.  What is not entered may be nested as deeply as it
likes, and may hold strings that are no text and numbers that are too large.  A value that is read as a
whole may not.
-/

namespace IdlSchema
namespace Json

mutual

/-- Whether all strings of a value are texts and all its numbers have floats. -/
def isSound : Json → Bool
  | .number numeral => numeral.toFloat?.isSome
  | .array items => areSoundItems items
  | .object fields => areSoundFields fields
  | .illFormed => false
  | _ => true

/-- Whether the items of an array are sound. -/
def areSoundItems : List Json → Bool
  | [] => true
  | item :: items => item.isSound && areSoundItems items

/-- Whether the values of an object are sound. -/
def areSoundFields : List (String × Json) → Bool
  | [] => true
  | (_, value) :: fields => value.isSound && areSoundFields fields

end

/-- A value with the number of arrays and objects that may be entered from it on. -/
structure Nested where
  json : Json
  room : Nat

/-- The largest number of arrays and objects that may enclose one another. -/
def depthLimit : Nat := 127

/-- A value that nothing encloses. -/
def outermost (json : Json) : Nested :=
  { json, room := depthLimit }

namespace Nested

/-- Whether a value can be read as a whole. -/
def isReadable (nested : Nested) : Bool :=
  nested.json.isSound && nested.json.depth ≤ nested.room

/-- The items of an array that may be entered. -/
def items? (nested : Nested) : Option (List Nested) :=
  match nested.room, nested.json with
  | room + 1, .array items => some (items.map fun json => { json, room })
  | _, _ => none

/-- The fields of an object that may be entered. -/
def fields? (nested : Nested) : Option (List (String × Nested)) :=
  match nested.room, nested.json with
  | room + 1, .object fields => some (fields.map fun (key, json) => (key, { json, room }))
  | _, _ => none

/-- The text of a string. -/
def string? (nested : Nested) : Option String :=
  nested.json.string?

/-- The truth value of a value that has one. -/
def bool? (nested : Nested) : Option Bool :=
  nested.json.bool?

/-- The float of a number. -/
def float? (nested : Nested) : Option Float :=
  nested.json.float?

end Nested
end Json
end IdlSchema
