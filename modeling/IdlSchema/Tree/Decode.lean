import IdlSchema.Tree.Fields
import IdlSchema.Tree.FileTree

/-!
# Files from JSON

Each construct of a file is a record of its parts.  Type references are read as a whole before their
kind is looked at, and so is the content of a literal that comes before the kind of the literal.
-/

namespace IdlSchema
namespace Decode

open Json (Nested)

/-- A kind among some; in what has been read as a whole it may be given by its number. -/
def kindAmong (kinds : List String) (whole : Bool) (nested : Nested) : Option String :=
  match nested.string? with
  | some kind => some kind
  | none =>
      if whole then
        (integerBetween 0 (kinds.length - 1) nested).bind fun index => kinds[index.toNat]?
      else none

/-- A position; line and column default to one. -/
def location (nested : Nested) : Option Location := do
  let fields ← record? ["path", "line", "column"] nested
  return {
    path := ← required fields "path" Nested.string?
    line := ← defaulted fields "line" 1 uint32
    column := ← defaulted fields "column" 1 uint32 }

/-- Annotations; of a repeated key the last value counts. -/
def annotations (nested : Nested) : Option Annotations := do
  let fields ← nested.fields?
  let entries ← fields.mapM fun (key, value) => value.string?.map fun text => (key, text)
  return Annotations.ofList entries

/-- The annotations among the fields of a record. -/
def annotationsOf (fields : Fields) : Option Annotations :=
  defaulted fields "annotations" .empty annotations

/-- The header among the fields of a record. -/
def headerOf (fields : Fields) : Option Header := do
  return {
    name := ← required fields "name" Nested.string?
    location := ← required fields "location" location
    documentation := ← defaulted fields "documentation" "" Nested.string?
    annotations := ← annotationsOf fields }

/-- A header on its own. -/
def header (nested : Nested) : Option Header :=
  (record? ["name", "location", "documentation", "annotations"] nested).bind headerOf

/-- The kinds of type references, in order. -/
def typeKinds : List String :=
  ["named", "list", "set", "map"]

/-- The keys of each kind of type reference, in order. -/
def typeKeys : String → Option (List String)
  | "named" => some ["location", "name", "annotations"]
  | "list" => some ["location", "element", "annotations"]
  | "set" => some ["location", "element", "annotations"]
  | "map" => some ["location", "key", "value", "annotations"]
  | _ => none

/-- The kind of a type reference and its other fields; in an array the kind comes first. -/
def typeFields? (whole : Bool) (nested : Nested) : Option (String × Fields) :=
  match nested.items? with
  | some (first :: items) => do
      let kind ← kindAmong typeKinds whole first
      let keys ← typeKeys kind
      if items.length ≤ keys.length then some (kind, keys.zip items) else none
  | some [] => none
  | none => do
      let fields ← nested.fields?
      return (← required fields "kind" (kindAmong typeKinds whole), fields)

/--
A type reference, perhaps within one, which has been read as a whole then; `fuel` bounds its depth.
-/
def typeReference : Nat → Bool → Nested → Option TypeReference
  | 0, _, _ => none
  | fuel + 1, whole, nested => do
      let (kind, fields) ← typeFields? whole nested
      match kind with
      | "named" =>
          return .named (← required fields "location" location)
            (← required fields "name" Nested.string?) (← annotationsOf fields)
      | "list" =>
          return .list (← required fields "location" location)
            (← required fields "element" (typeReference fuel true)) (← annotationsOf fields)
      | "set" =>
          return .set (← required fields "location" location)
            (← required fields "element" (typeReference fuel true)) (← annotationsOf fields)
      | "map" =>
          return .map (← required fields "location" location)
            (← required fields "key" (typeReference fuel true))
            (← required fields "value" (typeReference fuel true)) (← annotationsOf fields)
      | _ => none

/-- A type reference on its own. -/
def type (nested : Nested) : Option TypeReference :=
  if nested.isReadable then typeReference nested.room false nested else none

/-- The kinds of literals, in order. -/
def literalKinds : List String :=
  ["integer", "double", "string", "identifier", "list", "map"]

/--
The kind of a literal, its content, and whether the content has been read as a whole, as it is when it
comes before the kind.  In what has been read as a whole, an object without fields counts as nothing.
-/
def literalContent? (whole : Bool) (nested : Nested) : Option (String × Nested × Bool) :=
  match nested.items? with
  | some [kind, content] => do return (← kindAmong literalKinds whole kind, content, whole)
  | some _ => none
  | none => do
      let fields ← nested.fields?
      let kind ← required fields "kind" (name (if whole then isVoid else isNull))
      let content ← required fields "value" some
      let ahead := precedes "value" "kind" fields
      if ahead && !content.isReadable then none else return (kind, content, whole || ahead)

/-- A literal, perhaps within one that has been read as a whole; `fuel` bounds its depth. -/
def literal : Nat → Bool → Nested → Option Literal
  | 0, _, _ => none
  | fuel + 1, whole, nested => do
      let fields ← record? ["location", "value"] nested
      let location ← required fields "location" location
      let (kind, content, whole) ← required fields "value" (literalContent? whole)
      match kind with
      | "integer" => return .integer location (← int64 content)
      | "double" => return .double location (← content.float?)
      | "string" => return .string location (← content.string?)
      | "identifier" => return .identifier location (← content.string?)
      | "list" => return .list location (← list (literal fuel whole) content)
      | "map" => return .map location (← list (pair (literal fuel whole)) content)
      | _ => none

/-- A literal on its own. -/
def value (nested : Nested) : Option Literal :=
  literal nested.room false nested

/-- A field, a parameter or an exception. -/
def field (nested : Nested) : Option FieldDecl := do
  let fields ← declaration? ["id", "requiredness", "type", "default_value"] nested
  return {
    header := ← headerOf fields
    id := ← required fields "id" int16
    requiredness :=
      ← defaulted fields "requiredness" .default fun nested =>
        (name isNull nested).bind Requiredness.ofText?
    type := ← required fields "type" type
    default? := ← defaulted fields "default_value" none (nullable value) }

/-- A function. -/
def function (nested : Nested) : Option FunctionDecl := do
  let fields ← declaration? ["one_way", "return_type", "params", "exceptions"] nested
  return {
    header := ← headerOf fields
    oneWay := ← defaulted fields "one_way" false Nested.bool?
    returnType := ← required fields "return_type" type
    parameters := ← defaulted fields "params" [] (list field)
    exceptions := ← defaulted fields "exceptions" [] (list field) }

/-- A member of an enum. -/
def member (nested : Nested) : Option MemberDecl := do
  let fields ← declaration? ["value"] nested
  return {
    header := ← headerOf fields
    value? := ← defaulted fields "value" none (nullable int32) }

/-- An enum. -/
def enum (nested : Nested) : Option EnumDecl := do
  let fields ← declaration? ["members"] nested
  return {
    header := ← headerOf fields
    members := ← defaulted fields "members" [] (list member) }

/-- A struct, a union or an exception. -/
def struct (nested : Nested) : Option StructDecl := do
  let fields ← declaration? ["kind", "fields"] nested
  return {
    header := ← headerOf fields
    kind :=
      ← defaulted fields "kind" .struct fun nested =>
        (name isNull nested).bind StructKind.ofText?
    fields := ← defaulted fields "fields" [] (list field) }

/-- A typedef. -/
def typedef (nested : Nested) : Option TypedefDecl := do
  let fields ← declaration? ["old_type"] nested
  return {
    header := ← headerOf fields
    target := ← required fields "old_type" type }

/-- A service. -/
def service (nested : Nested) : Option ServiceDecl := do
  let fields ← declaration? ["extends", "functions"] nested
  return {
    header := ← headerOf fields
    base? := ← defaulted fields "extends" none (nullable type)
    functions := ← defaulted fields "functions" [] (list function) }

/-- A constant. -/
def constant (nested : Nested) : Option ConstantDecl := do
  let fields ← declaration? ["type", "value"] nested
  return {
    header := ← headerOf fields
    type := ← required fields "type" type
    value := ← required fields "value" value }

/-- An include. -/
def inclusion (nested : Nested) : Option IncludeDecl := do
  let fields ← record? ["location", "path"] nested
  return {
    location := ← required fields "location" location
    path := ← required fields "path" Nested.string? }

/-- A namespace. -/
def namespaceDecl (nested : Nested) : Option NamespaceDecl := do
  let fields ← record? ["location", "scope", "namespace"] nested
  return {
    location := ← required fields "location" location
    scope := ← required fields "scope" Nested.string?
    name := ← required fields "namespace" Nested.string? }

/-- The keys of a file, in order. -/
def fileKeys : List String :=
  ["location", "namespaces", "includes", "constants", "typedefs", "enums", "structs", "services"]

/-- A file. -/
def file (nested : Nested) : Option FileTree := do
  let fields ← record? fileKeys nested
  return {
    location := ← required fields "location" location
    namespaces := ← defaulted fields "namespaces" [] (list namespaceDecl)
    includes := ← defaulted fields "includes" [] (list inclusion)
    constants := ← defaulted fields "constants" [] (list constant)
    typedefs := ← defaulted fields "typedefs" [] (list typedef)
    enums := ← defaulted fields "enums" [] (list enum)
    structs := ← defaulted fields "structs" [] (list struct)
    services := ← defaulted fields "services" [] (list service) }

end Decode

namespace FileTree

/-- The file that a JSON value describes. -/
def ofJson? (json : Json) : Option FileTree :=
  Decode.file json.outermost

end FileTree
end IdlSchema
