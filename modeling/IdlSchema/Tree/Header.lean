import IdlSchema.Location
import IdlSchema.Text.Blank
import IdlSchema.Text.Search
import IdlSchema.Tree.Annotations

/-!
# Headers of declarations

Every declaration has a name, a position, a documentation text and annotations.  It counts as
deprecated when an annotation says so or the documentation contains the tag for it.
-/

namespace IdlSchema

/-- The name, position, documentation and annotations of a declaration. -/
structure Header where
  name : String
  location : Location
  documentation : String
  annotations : Annotations
  deriving DecidableEq, Inhabited

namespace Header

/-- The key of the annotation that marks a declaration as deprecated. -/
def deprecatedKey : String := "deprecated"

/-- The documentation tag that marks a declaration as deprecated. -/
def deprecatedTag : String := "@deprecated"

/-- A header without documentation and annotations. -/
def plain (name : String) (location : Location) : Header :=
  { name, location, documentation := "", annotations := .empty }

/-- Whether the documentation says anything. -/
def isDocumented (header : Header) : Bool :=
  !Text.blank header.documentation

/-- Whether the declaration is marked as deprecated. -/
def isDeprecated (header : Header) : Bool :=
  header.annotations.contains deprecatedKey ||
    Text.occursIn deprecatedTag.toList header.documentation.toList

/-- Equality of headers that disregards where they stand. -/
def agrees (a b : Header) : Bool :=
  a.name == b.name && a.documentation == b.documentation && a.annotations.agrees b.annotations

end Header
end IdlSchema
