import IdlSchema.Text.Search

/-!
# Paths

A path is a sequence of components between slashes.  Empty ones do not count, and a point alone
counts at the start only.  A path is normal when no directory is left again by the component
behind it.
-/

namespace IdlSchema
namespace Path

/-- A component of a path. -/
inductive Component where
  | root
  | current
  | parent
  | name (text : String)
  deriving DecidableEq

namespace Component

/-- The component of a part between slashes. -/
def ofPart (part : String) : Component :=
  if part = "." then .current else if part = ".." then .parent else .name part

/-- The part between slashes of a component. -/
def text : Component → String
  | root => ""
  | current => "."
  | parent => ".."
  | name text => text

/-- Whether a component names a file or directory. -/
def isName : Component → Bool
  | name _ => true
  | _ => false

end Component

/-- Whether a path starts at the root. -/
def isAbsolute (path : String) : Bool :=
  path.toList.head? == some '/'

/-- The components of the parts of a path. -/
def componentsOfParts (parts : List String) : List Component :=
  (parts.filter (!·.isEmpty)).map Component.ofPart

/-- The components of a path. -/
def components (path : String) : List Component :=
  let parts := (Text.partsBetween (· == '/') path.toList).map String.ofList
  let all := componentsOfParts parts
  let dotted := all.filter (· != .current)
  if isAbsolute path then .root :: dotted
  else if all.head? = some .current then .current :: dotted
  else dotted

/-- The path of some components. -/
def ofComponents : List Component → String
  | .root :: rest => "/" ++ "/".intercalate (rest.map Component.text)
  | components => "/".intercalate (components.map Component.text)

/-- Adds a component to normal ones, the last of which comes first. -/
def push (reversed : List Component) (component : Component) : List Component :=
  match component, reversed with
  | .current, _ => reversed
  | .parent, .name _ :: rest => rest
  | component, _ => component :: reversed

/-- The normal form of some components. -/
def normalizeComponents (components : List Component) : List Component :=
  (components.foldl push []).reverse

/-- The normal form of a path: no points, and no directory that is left again. -/
def normalize (path : String) : String :=
  ofComponents (normalizeComponents (components path))

/-- A path as seen from a directory. -/
def join (directory path : String) : String :=
  if isAbsolute path || directory.isEmpty then path
  else if directory.toList.getLast? = some '/' then directory ++ path
  else directory ++ "/" ++ path

/-- The directory that a path lies in; the root and the empty path lie in none. -/
def parent? (path : String) : Option String :=
  match (components path).reverse with
  | [] => none
  | .root :: _ => none
  | _ :: rest => some (ofComponents rest.reverse)

end Path
end IdlSchema
