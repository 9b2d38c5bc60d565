import IdlSchema.Diagnostic.Kind
import IdlSchema.Location

/-!
# Problems

A problem is reported at a position with a message; it may name related positions and carry hints.
Problems are collected in the order in which they are met, and presented in order of position.
-/

namespace IdlSchema

/-- A position that has to do with a problem, and why. -/
structure Related where
  message : String
  location : Location
  deriving DecidableEq

/-- A reported problem. -/
structure Diagnostic where
  kind : DiagnosticKind
  location : Location
  message : String
  related : List Related
  hints : List String
  deriving DecidableEq

namespace Diagnostic

/-- A problem with the message and the hint of its kind. -/
def plain (kind : DiagnosticKind) (location : Location) : Diagnostic :=
  { kind, location, message := kind.message none, related := [], hints := kind.hint?.toList }

/-- A problem with a detail in its message. -/
def detailed (kind : DiagnosticKind) (location : Location) (detail : String) : Diagnostic :=
  { plain kind location with message := kind.message (some detail) }

/-- The problem with one more related position. -/
def relatedTo (diagnostic : Diagnostic) (message : String) (location : Location) : Diagnostic :=
  { diagnostic with related := diagnostic.related ++ [{ message, location }] }

/-- The problem with one more hint. -/
def withHint (diagnostic : Diagnostic) (hint : String) : Diagnostic :=
  { diagnostic with hints := diagnostic.hints ++ [hint] }

/-- How bad the problem is. -/
def severity (diagnostic : Diagnostic) : Severity :=
  diagnostic.kind.severity

/-- Whether the problem is an error. -/
def isError (diagnostic : Diagnostic) : Bool :=
  diagnostic.severity == .error

/-- Whether the problem is a warning. -/
def isWarning (diagnostic : Diagnostic) : Bool :=
  diagnostic.severity == .warning

/-- The problem on one line. -/
def text (diagnostic : Diagnostic) : String :=
  let related := diagnostic.related.map fun related =>
    " (related: " ++ related.message ++ " at " ++ related.location.text ++ ")"
  let hints := diagnostic.hints.map fun hint => " (hint: " ++ hint ++ ")"
  diagnostic.severity.text ++ " at " ++ diagnostic.location.text ++ ": " ++ diagnostic.message ++
    String.join related ++ String.join hints

/-- The order of presentation: by position, then by kind. -/
def compare (a b : Diagnostic) : Ordering :=
  (a.location.compare b.location).then (Ord.compare a.kind.rank b.kind.rank)

end Diagnostic

/-- Problems in the order in which they were met. -/
abbrev Diagnostics := List Diagnostic

namespace Diagnostics

/-- The errors among the problems. -/
def errors (diagnostics : Diagnostics) : Diagnostics :=
  diagnostics.filter (·.isError)

/-- The warnings among the problems. -/
def warnings (diagnostics : Diagnostics) : Diagnostics :=
  diagnostics.filter (·.isWarning)

/-- Whether there is an error. -/
def hasErrors (diagnostics : Diagnostics) : Bool :=
  diagnostics.any (·.isError)

/-- Whether there is a warning. -/
def hasWarnings (diagnostics : Diagnostics) : Bool :=
  diagnostics.any (·.isWarning)

/-- The number of problems of a kind. -/
def countOf (diagnostics : Diagnostics) (kind : DiagnosticKind) : Nat :=
  diagnostics.countP (·.kind == kind)

/-- The problems in order of presentation; those that compare equal keep their order. -/
def sorted (diagnostics : Diagnostics) : Diagnostics :=
  diagnostics.mergeSort fun a b => (a.compare b).isLE

end Diagnostics
end IdlSchema
