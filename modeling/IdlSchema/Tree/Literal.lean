import IdlSchema.Location

/-!
# Literals

The value of a constant or a default as it is written.  An identifier may stand for a truth value,
an enum member or another constant.
-/

namespace IdlSchema

/-- A value as it is written, with its position. -/
inductive Literal where
  | integer (location : Location) (value : Int64)
  | double (location : Location) (value : Float)
  | string (location : Location) (text : String)
  | identifier (location : Location) (name : String)
  | list (location : Location) (items : List Literal)
  | map (location : Location) (entries : List (Literal × Literal))
  deriving Inhabited

namespace Literal

/-- Where the literal starts. -/
def location : Literal → Location
  | integer location _ => location
  | double location _ => location
  | string location _ => location
  | identifier location _ => location
  | list location _ => location
  | map location _ => location

/-- The sort of the literal, for messages. -/
def description : Literal → String
  | integer _ _ => "an integer"
  | double _ _ => "a double"
  | string _ _ => "a string"
  | identifier _ _ => "an identifier"
  | list _ _ => "a list"
  | map _ _ => "a map"

mutual

/-- Equality of literals that disregards where they stand; doubles are equal as numbers. -/
def agrees : Literal → Literal → Bool
  | integer _ a, integer _ b => a == b
  | double _ a, double _ b => a == b
  | string _ a, string _ b => a == b
  | identifier _ a, identifier _ b => a == b
  | list _ as, list _ bs => itemsAgree as bs
  | map _ as, map _ bs => entriesAgree as bs
  | _, _ => false

/-- Equality of lists of literals that disregards positions. -/
def itemsAgree : List Literal → List Literal → Bool
  | [], [] => true
  | a :: as, b :: bs => a.agrees b && itemsAgree as bs
  | _, _ => false

/-- Equality of lists of entries that disregards positions. -/
def entriesAgree : List (Literal × Literal) → List (Literal × Literal) → Bool
  | [], [] => true
  | (k, v) :: as, (k', v') :: bs => k.agrees k' && v.agrees v' && entriesAgree as bs
  | _, _ => false

end

end Literal
end IdlSchema
