import IdlSchema.Tree.FileTree

/-!
# Uses of types in declarations

Every type reference of a declaration stands in some position.  In most positions a value of the
type is stored, so neither void nor a service may stand there.
-/

namespace IdlSchema

/-- The position of a type reference in a declaration. -/
inductive TypeUse where
  | field
  | parameter
  | typedefTarget
  | constant
  | returnType
  | exception
  | base
  deriving DecidableEq

namespace TypeUse

/-- The name of a position where a value is stored; exceptions and bases have rules of their own. -/
def valuePosition? : TypeUse → Option String
  | field => some "field"
  | parameter => some "parameter"
  | typedefTarget => some "typedef target"
  | constant => some "constant"
  | returnType => none
  | exception => none
  | base => none

end TypeUse

/-- The types of a list of fields, all in the same position. -/
def fieldUses (use : TypeUse) (fields : List FieldDecl) : List (TypeUse × TypeReference) :=
  fields.map fun field => (use, field.type)

namespace FunctionDecl

/-- The types that a function refers to, in order. -/
def uses (function : FunctionDecl) : List (TypeUse × TypeReference) :=
  (.returnType, function.returnType) ::
    (fieldUses .parameter function.parameters ++ fieldUses .exception function.exceptions)

end FunctionDecl

namespace StructDecl

/-- The types that a struct refers to, in order. -/
def uses (struct : StructDecl) : List (TypeUse × TypeReference) :=
  fieldUses .field struct.fields

end StructDecl

namespace TypedefDecl

/-- The type that a typedef refers to. -/
def uses (typedef : TypedefDecl) : List (TypeUse × TypeReference) :=
  [(.typedefTarget, typedef.target)]

end TypedefDecl

namespace ServiceDecl

/-- The types that a service refers to, in order. -/
def uses (service : ServiceDecl) : List (TypeUse × TypeReference) :=
  service.base?.toList.map (fun base => (.base, base)) ++ service.functions.flatMap (·.uses)

end ServiceDecl

namespace ConstantDecl

/-- The type that a constant refers to. -/
def uses (constant : ConstantDecl) : List (TypeUse × TypeReference) :=
  [(.constant, constant.type)]

end ConstantDecl

namespace FileTree

/-- The types that the declarations of a file refer to. -/
def uses (file : FileTree) : List (TypeUse × TypeReference) :=
  file.typedefs.flatMap (·.uses) ++ file.structs.flatMap (·.uses) ++
    file.services.flatMap (·.uses) ++ file.constants.flatMap (·.uses)

end FileTree
end IdlSchema
