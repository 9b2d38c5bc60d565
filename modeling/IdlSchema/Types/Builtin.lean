/-!
# Built-in types

The keywords of the built-in types.  A keyword always means its type: declarations cannot take
its name.
-/

namespace IdlSchema

/-- A built-in type. -/
inductive Builtin where
  | bool
  | byte
  | i8
  | i16
  | i32
  | i64
  | double
  | string
  | binary
  | void
  deriving DecidableEq

namespace Builtin

/-- All built-in types in their fixed order. -/
def all : List Builtin :=
  [bool, byte, i8, i16, i32, i64, double, string, binary, void]

/-- The position of a built-in type in the fixed order. -/
def index : Builtin → Nat
  | bool => 0
  | byte => 1
  | i8 => 2
  | i16 => 3
  | i32 => 4
  | i64 => 5
  | double => 6
  | string => 7
  | binary => 8
  | void => 9

/-- The keyword of a built-in type. -/
def keyword : Builtin → String
  | bool => "bool"
  | byte => "byte"
  | i8 => "i8"
  | i16 => "i16"
  | i32 => "i32"
  | i64 => "i64"
  | double => "double"
  | string => "string"
  | binary => "binary"
  | void => "void"

/-- The built-in type with a given keyword. -/
def ofKeyword? (keyword : String) : Option Builtin :=
  all.find? (·.keyword == keyword)

/-- The smallest and the largest value of an integer type. -/
def integerRange? : Builtin → Option (Int × Int)
  | byte => some (Int8.minValue.toInt, Int8.maxValue.toInt)
  | i8 => some (Int8.minValue.toInt, Int8.maxValue.toInt)
  | i16 => some (Int16.minValue.toInt, Int16.maxValue.toInt)
  | i32 => some (Int32.minValue.toInt, Int32.maxValue.toInt)
  | i64 => some (Int64.minValue.toInt, Int64.maxValue.toInt)
  | _ => none

@[simp]
theorem getElem?_all (builtin : Builtin) : all[builtin.index]? = some builtin := by
  cases builtin <;> rfl

@[simp]
theorem ofKeyword?_keyword (builtin : Builtin) : ofKeyword? builtin.keyword = some builtin := by
  cases builtin <;> decide

end Builtin
end IdlSchema
