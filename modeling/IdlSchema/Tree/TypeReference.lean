import IdlSchema.Location
import IdlSchema.Tree.Annotations

/-!
# Type references

A type is referred to by a name, which may be a keyword or carry the qualifier of an include, or
as a collection of other types.
-/

namespace IdlSchema

/-- A type as it is written. -/
inductive TypeReference where
  | named (location : Location) (name : String) (annotations : Annotations)
  | list (location : Location) (element : TypeReference) (annotations : Annotations)
  | set (location : Location) (element : TypeReference) (annotations : Annotations)
  | map (location : Location) (key value : TypeReference) (annotations : Annotations)
  deriving DecidableEq

namespace TypeReference

/-- Where the reference starts. -/
def location : TypeReference → Location
  | named location _ _ => location
  | list location _ _ => location
  | set location _ _ => location
  | map location _ _ _ => location

/-- The annotations of the reference itself. -/
def annotations : TypeReference → Annotations
  | named _ _ annotations => annotations
  | list _ _ annotations => annotations
  | set _ _ annotations => annotations
  | map _ _ _ annotations => annotations

/-- The reference as it is written, without annotations. -/
def text : TypeReference → String
  | named _ name _ => name
  | list _ element _ => "list<" ++ element.text ++ ">"
  | set _ element _ => "set<" ++ element.text ++ ">"
  | map _ key value _ => "map<" ++ key.text ++ ", " ++ value.text ++ ">"

/-- Equality of references that disregards where they stand. -/
def agrees : TypeReference → TypeReference → Bool
  | named _ a as, named _ b bs => as.agrees bs && a == b
  | list _ a as, list _ b bs => as.agrees bs && a.agrees b
  | set _ a as, set _ b bs => as.agrees bs && a.agrees b
  | map _ a a' as, map _ b b' bs => as.agrees bs && a.agrees b && a'.agrees b'
  | _, _ => false

/-- The reference without annotations, at every level. -/
def plain : TypeReference → TypeReference
  | named location name _ => named location name .empty
  | list location element _ => list location element.plain .empty
  | set location element _ => set location element.plain .empty
  | map location key value _ => map location key.plain value.plain .empty

end TypeReference
end IdlSchema
