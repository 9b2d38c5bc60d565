import IdlSchema.Json.Nested

/-!
# Records in JSON

A record is an object of its fields, in any order and with unknown keys between them, or an array
of its first fields in their own order.  Required fields must be there, the others have a
default.  The values of unknown keys are passed over.
-/

namespace IdlSchema
namespace Decode

/-- The fields of a record, by key. -/
abbrev Fields := List (String × Json.Nested)

/-- The fields of a record whose keys are given in their own order. -/
def record? (keys : List String) (nested : Json.Nested) : Option Fields :=
  match nested.items? with
  | some items => if items.length ≤ keys.length then some (keys.zip items) else none
  | none => nested.fields?

/--
The fields of a declaration, whose header stands among fields of its own.  A declaration is always an
object, and all fields but its own are read as a whole.
-/
def declaration? (own : List String) (nested : Json.Nested) : Option Fields :=
  nested.fields?.filter fun fields =>
    fields.all fun (key, value) => own.contains key || value.isReadable

/--
The field with a key, if there is one; a repeated key is refused.
-/
def find? (fields : Fields) (key : String) : Option (Option Json.Nested) :=
  match fields.filter (·.1 == key) with
  | [] => some none
  | [(_, value)] => some (some value)
  | _ => none

/-- A field that must be there. -/
def required {α : Type} (fields : Fields) (key : String) (decode : Json.Nested → Option α) :
    Option α :=
  match find? fields key with
  | some (some value) => decode value
  | _ => none

/-- A field with a default. -/
def defaulted {α : Type} (fields : Fields) (key : String) (default : α)
    (decode : Json.Nested → Option α) : Option α :=
  match find? fields key with
  | some (some value) => decode value
  | some none => some default
  | none => none

/-- A value that may be null. -/
def nullable {α : Type} (decode : Json.Nested → Option α) (nested : Json.Nested) :
    Option (Option α) :=
  match nested.json with
  | .null => some none
  | _ => (decode nested).map some

/-- A list of values. -/
def list {α : Type} (decode : Json.Nested → Option α) (nested : Json.Nested) : Option (List α) :=
  nested.items?.bind fun items => items.mapM decode

/-- A pair of values. -/
def pair {α : Type} (decode : Json.Nested → Option α) (nested : Json.Nested) :
    Option (α × α) :=
  match nested.items? with
  | some [first, second] => do return (← decode first, ← decode second)
  | _ => none

/-- Whether a value is null. -/
def isNull : Json → Bool
  | .null => true
  | _ => false

/-- Whether a value is null, or an object without fields. -/
def isVoid : Json → Bool
  | .null => true
  | .object [] => true
  | _ => false

/-- A name, as a string or as the only key of an object with nothing as its value. -/
def name (isNothing : Json → Bool) (nested : Json.Nested) : Option String :=
  match nested.json with
  | .string text => some text
  | _ =>
      match nested.fields? with
      | some [(text, value)] => if isNothing value.json then some text else none
      | _ => none

/-- Whether of two keys the first comes first among the fields of a record. -/
def precedes (first second : String) (fields : Fields) : Bool :=
  (fields.find? fun (key, _) => key == first || key == second).any (·.1 == first)

/-- The integer of a value, if it lies between two bounds. -/
def integerBetween (low high : Int) (nested : Json.Nested) : Option Int :=
  nested.json.integerBetween? low high

/-- A natural number of 32 bits. -/
def uint32 (nested : Json.Nested) : Option UInt32 :=
  (integerBetween 0 (UInt32.size - 1) nested).map fun i => UInt32.ofNat i.toNat

/-- An integer of 16 bits. -/
def int16 (nested : Json.Nested) : Option Int16 :=
  (integerBetween Int16.minValue.toInt Int16.maxValue.toInt nested).map Int16.ofInt

/-- An integer of 32 bits. -/
def int32 (nested : Json.Nested) : Option Int32 :=
  (integerBetween Int32.minValue.toInt Int32.maxValue.toInt nested).map Int32.ofInt

/-- An integer of 64 bits. -/
def int64 (nested : Json.Nested) : Option Int64 :=
  (integerBetween Int64.minValue.toInt Int64.maxValue.toInt nested).map Int64.ofInt

end Decode
end IdlSchema
