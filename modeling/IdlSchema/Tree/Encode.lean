import IdlSchema.Json.Magnitude
import IdlSchema.Tree.FileTree

/-!
# Files as JSON

Every record becomes an object with all its fields in their own order, defaults filled in.
-/

namespace IdlSchema
namespace Encode

/-- A value or null. -/
def nullable {α : Type} (encode : α → Json) : Option α → Json
  | none => .null
  | some value => encode value

/-- A list of values. -/
def list {α : Type} (encode : α → Json) (values : List α) : Json :=
  .array (values.map encode)

/-- A position. -/
def location (location : Location) : Json :=
  .object [
    ("path", .string location.path),
    ("line", .nat location.line.toNat),
    ("column", .nat location.column.toNat)]

/-- Annotations. -/
def annotations (annotations : Annotations) : Json :=
  .object (annotations.entries.map fun (key, value) => (key, .string value))

/-- The fields of a header. -/
def headerFields (header : Header) : List (String × Json) :=
  [("name", .string header.name),
    ("location", location header.location),
    ("documentation", .string header.documentation),
    ("annotations", annotations header.annotations)]

/-- A header on its own. -/
def header (header : Header) : Json :=
  .object (headerFields header)

/-- A type reference. -/
def type : TypeReference → Json
  | .named start name notes =>
      .object [("kind", .string "named"), ("location", location start), ("name", .string name),
        ("annotations", annotations notes)]
  | .list start element notes =>
      .object [("kind", .string "list"), ("location", location start), ("element", type element),
        ("annotations", annotations notes)]
  | .set start element notes =>
      .object [("kind", .string "set"), ("location", location start), ("element", type element),
        ("annotations", annotations notes)]
  | .map start key value notes =>
      .object [("kind", .string "map"), ("location", location start), ("key", type key),
        ("value", type value), ("annotations", annotations notes)]

/-- A literal of a kind with its content. -/
def tagged (start : Location) (kind : String) (content : Json) : Json :=
  .object [("location", location start),
    ("value", .object [("kind", .string kind), ("value", content)])]

mutual

/-- A literal. -/
def value : Literal → Json
  | .integer start i => tagged start "integer" (.int i.toInt)
  | .double start x => tagged start "double" (.float x)
  | .string start text => tagged start "string" (.string text)
  | .identifier start name => tagged start "identifier" (.string name)
  | .list start items => tagged start "list" (.array (values items))
  | .map start pairs => tagged start "map" (.array (entries pairs))

/-- The literals of a list. -/
def values : List Literal → List Json
  | [] => []
  | item :: items => value item :: values items

/-- The literals of a map, in pairs. -/
def entries : List (Literal × Literal) → List Json
  | [] => []
  | (k, v) :: rest => .array [value k, value v] :: entries rest

end

/-- A field, a parameter or an exception. -/
def field (field : FieldDecl) : Json :=
  .object (headerFields field.header ++ [
    ("id", .int field.id.toInt),
    ("requiredness", .string field.requiredness.text),
    ("type", type field.type),
    ("default_value", nullable value field.default?)])

/-- A function. -/
def function (function : FunctionDecl) : Json :=
  .object (headerFields function.header ++ [
    ("one_way", .bool function.oneWay),
    ("return_type", type function.returnType),
    ("params", list field function.parameters),
    ("exceptions", list field function.exceptions)])

/-- A member of an enum. -/
def member (member : MemberDecl) : Json :=
  .object (headerFields member.header ++ [
    ("value", nullable (fun i => .int i.toInt) member.value?)])

/-- An enum. -/
def enum (enum : EnumDecl) : Json :=
  .object (headerFields enum.header ++ [("members", list member enum.members)])

/-- A struct, a union or an exception. -/
def struct (struct : StructDecl) : Json :=
  .object (headerFields struct.header ++ [
    ("kind", .string struct.kind.text),
    ("fields", list field struct.fields)])

/-- A typedef. -/
def typedef (typedef : TypedefDecl) : Json :=
  .object (headerFields typedef.header ++ [("old_type", type typedef.target)])

/-- A service. -/
def service (service : ServiceDecl) : Json :=
  .object (headerFields service.header ++ [
    ("extends", nullable type service.base?),
    ("functions", list function service.functions)])

/-- A constant. -/
def constant (constant : ConstantDecl) : Json :=
  .object (headerFields constant.header ++ [
    ("type", type constant.type),
    ("value", value constant.value)])

/-- An include. -/
def inclusion (inclusion : IncludeDecl) : Json :=
  .object [("location", location inclusion.location), ("path", .string inclusion.path)]

/-- A namespace. -/
def namespaceDecl (decl : NamespaceDecl) : Json :=
  .object [
    ("location", location decl.location),
    ("scope", .string decl.scope),
    ("namespace", .string decl.name)]

end Encode

namespace FileTree

/-- The JSON value that describes a file. -/
def toJson (file : FileTree) : Json :=
  .object [
    ("location", Encode.location file.location),
    ("namespaces", Encode.list Encode.namespaceDecl file.namespaces),
    ("includes", Encode.list Encode.inclusion file.includes),
    ("constants", Encode.list Encode.constant file.constants),
    ("typedefs", Encode.list Encode.typedef file.typedefs),
    ("enums", Encode.list Encode.enum file.enums),
    ("structs", Encode.list Encode.struct file.structs),
    ("services", Encode.list Encode.service file.services)]

end FileTree
end IdlSchema
