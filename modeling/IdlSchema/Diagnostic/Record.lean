import IdlSchema.Diagnostic.Basic
import IdlSchema.Json.Writer

/-!
# Problems as records

For other programs each problem is a JSON object with its severity, kind, position, message and
hints.
-/

namespace IdlSchema

namespace Diagnostic

/-- The record of a problem. -/
def record (diagnostic : Diagnostic) : Json :=
  .object [
    ("severity", .string diagnostic.severity.text),
    ("kind", .string diagnostic.kind.name),
    ("path", .string diagnostic.location.path),
    ("line", .nat diagnostic.location.line.toNat),
    ("column", .nat diagnostic.location.column.toNat),
    ("message", .string diagnostic.message),
    ("hints", .array (diagnostic.hints.map Json.string))]

end Diagnostic

namespace Diagnostics

/-- The records of problems as text. -/
def recordsText (diagnostics : Diagnostics) : String :=
  (Json.array (diagnostics.map Diagnostic.record)).pretty

end Diagnostics
end IdlSchema
