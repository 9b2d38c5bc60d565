/-!
# Kinds of problems

Each kind of problem has a severity, a message for when nothing more is known, a template for a
message with a detail, and for some kinds a hint.  The order of the kinds decides between problems
at the same position, so that a failed include comes before the references that it breaks.
-/

namespace IdlSchema

/-- How bad a problem is. -/
inductive Severity where
  | error
  | warning
  deriving DecidableEq, Inhabited

namespace Severity

/-- The word for a severity. -/
def text : Severity → String
  | error => "error"
  | warning => "warning"

end Severity

/-- The kinds of problems, in order. -/
inductive DiagnosticKind where
  | unresolvedInclude
  | includeDepthExceeded
  | duplicateSymbol
  | unresolvedType
  | ambiguousType
  | unresolvedConstant
  | cyclicTypedef
  | cyclicConstant
  | typeMismatch
  | invalidFieldType
  | duplicateFieldId
  | duplicateFieldName
  | invalidUnionField
  | invalidExceptionType
  | oneWayReturnType
  | oneWayThrows
  | duplicateEnumMember
  | invalidServiceExtends
  | cyclicServiceInheritance
  | duplicateMethod
  | deprecatedUsage
  deriving DecidableEq, Inhabited

/-- A message around the place for a detail. -/
structure MessageTemplate where
  before : String
  after : String

namespace MessageTemplate

/-- The template with a detail in its place. -/
def fill (template : MessageTemplate) (detail : String) : String :=
  template.before ++ detail ++ template.after

/-- The template with a pair of braces in place of the detail. -/
def text (template : MessageTemplate) : String :=
  template.fill "\x7b\x7d"

end MessageTemplate

namespace DiagnosticKind

/-- All kinds in order. -/
def all : List DiagnosticKind :=
  [unresolvedInclude, includeDepthExceeded, duplicateSymbol, unresolvedType, ambiguousType,
    unresolvedConstant, cyclicTypedef, cyclicConstant, typeMismatch, invalidFieldType,
    duplicateFieldId, duplicateFieldName, invalidUnionField, invalidExceptionType,
    oneWayReturnType, oneWayThrows, duplicateEnumMember, invalidServiceExtends,
    cyclicServiceInheritance, duplicateMethod, deprecatedUsage]

/-- The place of a kind in the order. -/
def rank (kind : DiagnosticKind) : Nat :=
  all.idxOf kind

/-- The name of a kind. -/
def name : DiagnosticKind → String
  | unresolvedInclude => "UnresolvedInclude"
  | includeDepthExceeded => "IncludeDepthExceeded"
  | duplicateSymbol => "DuplicateSymbol"
  | unresolvedType => "UnresolvedType"
  | ambiguousType => "AmbiguousType"
  | unresolvedConstant => "UnresolvedConstant"
  | cyclicTypedef => "CyclicTypedef"
  | cyclicConstant => "CyclicConstant"
  | typeMismatch => "TypeMismatch"
  | invalidFieldType => "InvalidFieldType"
  | duplicateFieldId => "DuplicateFieldId"
  | duplicateFieldName => "DuplicateFieldName"
  | invalidUnionField => "InvalidUnionField"
  | invalidExceptionType => "InvalidExceptionType"
  | oneWayReturnType => "OneWayReturnType"
  | oneWayThrows => "OneWayThrows"
  | duplicateEnumMember => "DuplicateEnumMember"
  | invalidServiceExtends => "InvalidServiceExtends"
  | cyclicServiceInheritance => "CyclicServiceInheritance"
  | duplicateMethod => "DuplicateMethod"
  | deprecatedUsage => "DeprecatedUsage"

/-- The kind with a given name. -/
def ofName? (name : String) : Option DiagnosticKind :=
  all.find? (·.name == name)

/-- Only the use of something deprecated is a warning. -/
def severity : DiagnosticKind → Severity
  | deprecatedUsage => .warning
  | _ => .error

/-- The hint that every problem of a kind comes with. -/
def hint? : DiagnosticKind → Option String
  | ambiguousType => some "qualify the name with its include prefix"
  | cyclicTypedef => some "a typedef must eventually name a non-typedef type"
  | oneWayThrows => some "oneway calls never deliver a response"
  | _ => none

/-- The message of a problem without a detail. -/
def fallback : DiagnosticKind → String
  | unresolvedInclude => "include could not be resolved"
  | includeDepthExceeded => "include chain is too deep"
  | duplicateSymbol => "duplicate declaration"
  | unresolvedType => "unknown type"
  | ambiguousType => "ambiguous type reference"
  | unresolvedConstant => "unknown constant"
  | cyclicTypedef => "cyclic typedef"
  | cyclicConstant => "cyclic constant reference"
  | typeMismatch => "type mismatch"
  | invalidFieldType => "invalid type"
  | duplicateFieldId => "duplicate field id"
  | duplicateFieldName => "duplicate field name"
  | invalidUnionField => "invalid union field"
  | invalidExceptionType => "only exception types can be thrown"
  | oneWayReturnType => "oneway methods must return void"
  | oneWayThrows => "oneway methods may not throw exceptions"
  | duplicateEnumMember => "duplicate enum member"
  | invalidServiceExtends => "services may only extend services"
  | cyclicServiceInheritance => "cyclic service inheritance"
  | duplicateMethod => "duplicate method"
  | deprecatedUsage => "use of deprecated type"

/-- The template of a message with a detail; by default the detail follows the plain message. -/
def template : DiagnosticKind → MessageTemplate
  | unresolvedInclude => ⟨"cannot resolve include `", "`"⟩
  | duplicateSymbol => ⟨"`", "` is already declared"⟩
  | unresolvedType => ⟨"`", "` is not a known type"⟩
  | ambiguousType => ⟨"`", "` is ambiguous"⟩
  | unresolvedConstant => ⟨"`", "` is not a known constant"⟩
  | invalidExceptionType => ⟨"only exception types can be thrown; `", "` is not an exception"⟩
  | oneWayReturnType => ⟨"oneway method `", "` must return void"⟩
  | oneWayThrows => ⟨"oneway method `", "` may not throw exceptions"⟩
  | invalidServiceExtends => ⟨"`", "` is not a service"⟩
  | duplicateMethod => ⟨"method `", "` is already declared"⟩
  | deprecatedUsage => ⟨"`", "` is deprecated"⟩
  | kind => ⟨kind.fallback ++ ": ", ""⟩

/-- The message of a problem, with a detail if there is one. -/
def message (kind : DiagnosticKind) : Option String → String
  | none => kind.fallback
  | some detail => kind.template.fill detail

theorem mem_all (kind : DiagnosticKind) : kind ∈ all := by
  cases kind <;> decide

theorem rank_inj {a b : DiagnosticKind} (same : a.rank = b.rank) : a = b := by
  cases a <;> cases b <;> first | rfl | exact absurd same (by decide)

end DiagnosticKind
end IdlSchema
