import IdlSchema.Decimal.Layout
import IdlSchema.Schema.Basic
import IdlSchema.Text.Quoted

/-!
# Schemas as text

A schema is shown file by file in the order of the table.  The block of a file names the file, its
namespaces and its includes, and then its own typedefs, enums, structs, services and constants, each
kind in the order of the source.
-/

namespace IdlSchema
namespace Schema

/--
Doubles are positional below `10 ^ 16` and down to `10 ^ -4`, exponents have no plus sign, and of
two equally near decimals the one further from zero is written.
-/
def doubleLayout : Decimal.Layout :=
  { positionalFrom := -4, positionalTo := 15, positiveSign := "", tie := .up }

/-- The text of a double. -/
def doubleText (x : Float) : String :=
  doubleLayout.floatText x

mutual

/-- The text of a value. -/
def valueText (graph : TypeGraph) : ConstantValue → String
  | .bool true => "true"
  | .bool false => "false"
  | .integer value => toString value.toInt
  | .double value => doubleText value
  | .string text => Text.quoted text
  | .enumMember enum name _ => graph.typeName enum ++ "." ++ name
  | .list items => "[" ++ ", ".intercalate (itemTexts graph items) ++ "]"
  | .map entries => "\x7b" ++ ", ".intercalate (entryTexts graph entries) ++ "\x7d"
  | .struct fields => "\x7b" ++ ", ".intercalate (fieldTexts graph fields) ++ "\x7d"

/-- The texts of the items of a list. -/
def itemTexts (graph : TypeGraph) : List ConstantValue → List String
  | [] => []
  | item :: items => valueText graph item :: itemTexts graph items

/-- The texts of the entries of a map. -/
def entryTexts (graph : TypeGraph) : List (ConstantValue × ConstantValue) → List String
  | [] => []
  | (key, value) :: entries =>
      (valueText graph key ++ ": " ++ valueText graph value) :: entryTexts graph entries

/-- The texts of the fields of a struct. -/
def fieldTexts (graph : TypeGraph) : List (String × ConstantValue) → List String
  | [] => []
  | (name, value) :: fields =>
      (name ++ ": " ++ valueText graph value) :: fieldTexts graph fields

end

/-- A field with its number, its type and its default, without its requiredness. -/
def parameterText (graph : TypeGraph) (field : Field ConstantValue) : String :=
  let value := (field.default?.map fun value => " = " ++ valueText graph value).getD ""
  graph.typeName field.type ++ " " ++ field.name ++ value

/-- A parameter or an exception. -/
def numberedParameter (graph : TypeGraph) (field : Field ConstantValue) : String :=
  toString field.id.toInt ++ ": " ++ parameterText graph field

/-- A field of a struct, with its requiredness. -/
def numberedField (graph : TypeGraph) (field : Field ConstantValue) : String :=
  toString field.id.toInt ++ ": " ++ field.requiredness.text ++ " " ++ parameterText graph field

/-- The annotations of a declaration on lines of their own, if they are wanted. -/
def annotationLines (wanted : Bool) (header : Header) : List String :=
  if wanted then
    header.annotations.entries.map fun (key, value) =>
      "  @" ++ key ++ " = " ++ Text.quoted value
  else []

/-- The lines of a typedef. -/
def typedefLines (schema : Schema) (annotations : Bool) (typedef : TypedefType) : List String :=
  ("typedef " ++ schema.graph.typeName typedef.id ++ " = " ++
      schema.graph.typeName typedef.target) ::
    annotationLines annotations typedef.header

/-- The lines of an enum. -/
def enumLines (schema : Schema) (annotations : Bool) (enum : EnumType) : List String :=
  ("enum " ++ schema.graph.typeName enum.id) ::
    (annotationLines annotations enum.header ++
      enum.members.map fun member =>
        "  " ++ member.name ++ " = " ++ toString member.value.toInt)

/-- The lines of a struct, a union or an exception. -/
def structLines (schema : Schema) (annotations : Bool) (struct : StructType ConstantValue) :
    List String :=
  (struct.kind.text ++ " " ++ schema.graph.typeName struct.id) ::
    (annotationLines annotations struct.header ++
      struct.fields.map fun field => "  " ++ numberedField schema.graph field)

/-- The line of a method. -/
def methodLine (schema : Schema) (method : Method ConstantValue) : String :=
  let fields (list : List (Field ConstantValue)) : String :=
    "(" ++ ", ".intercalate (list.map (numberedParameter schema.graph)) ++ ")"
  let throws := if method.exceptions.isEmpty then "" else " throws " ++ fields method.exceptions
  "  " ++ (if method.oneWay then "oneway " else "") ++
    schema.graph.typeName method.returnType ++ " " ++ method.name ++ fields method.parameters ++
    throws

/-- The lines of a service. -/
def serviceLines (schema : Schema) (annotations : Bool) (service : ServiceType ConstantValue) :
    List String :=
  let base := (service.base?.map fun base => " extends " ++ schema.graph.typeName base).getD ""
  ("service " ++ schema.graph.typeName service.id ++ base) ::
    (annotationLines annotations service.header ++ service.methods.map schema.methodLine)

/-- The line of a constant. -/
def constantLine (schema : Schema) (constant : Constant ConstantValue) : String :=
  "const " ++ constant.name ++ ": " ++ schema.graph.typeName constant.type ++ " = " ++
    valueText schema.graph constant.value

/-- The lines of the declarations of a file. -/
def declarationLines (schema : Schema) (annotations : Bool) (file : FileId) : List String :=
  let model := schema.model
  (model.typedefs.filter (·.file == file)).flatMap (schema.typedefLines annotations) ++
    (model.enums.filter (·.file == file)).flatMap (schema.enumLines annotations) ++
    (model.structs.filter (·.file == file)).flatMap (schema.structLines annotations) ++
    (model.services.filter (·.file == file)).flatMap (schema.serviceLines annotations) ++
    (model.constants.filter (·.file == file)).map schema.constantLine

/-- The lines of the block of a file. -/
def fileLines (schema : Schema) (annotations : Bool) (id : FileId) (file : SchemaFile) :
    List String :=
  ("file " ++ file.path ++ " (prefix " ++ file.qualifier ++ ")") ::
    (file.tree.namespaces.map (fun decl => "  namespace " ++ decl.scope ++ " " ++ decl.name) ++
      file.includes.map (fun included => "  include " ++ schema.files.path included) ++
      schema.declarationLines annotations id)

/-- The text of a schema, with annotations if they are wanted; blocks have a blank line between. -/
def dump (schema : Schema) (annotations : Bool) : String :=
  let blocks := schema.files.files.zipIdx.map fun (file, index) =>
    schema.fileLines annotations ⟨index⟩ file
  let text (lines : List String) : String := String.join (lines.map (· ++ "\n"))
  "\n".intercalate (blocks.map text)

end Schema
end IdlSchema
