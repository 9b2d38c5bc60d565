import IdlSchema.Schema.Basic

/-!
# Looking things up in a schema

Types and constants are found by name, alone or behind the qualifier of a file.  Where several
files fit, types are taken from the first in the table and constants from the first in the model.
-/

namespace IdlSchema
namespace Schema

/-- The type that is declared with a name in the first of some files that declares it. -/
def findIn (schema : Schema) (files : List FileId) (name : String) : Option TypeId :=
  files.findSome? (schema.graph.lookup · name)

/-- The declared type with a name. -/
def findType (schema : Schema) (name : String) : Option TypeId :=
  match Text.splitFirst? name with
  | some (qualifier, rest) =>
      schema.findIn
        (schema.files.ids.filter fun file => schema.files.qualifier file == qualifier) rest
  | none => schema.findIn schema.files.ids name

/-- The constant with a name. -/
def findConstant (schema : Schema) (name : String) : Option (Constant ConstantValue) :=
  match Text.splitFirst? name with
  | some (qualifier, rest) =>
      schema.model.constants.find? fun constant =>
        constant.name == rest && schema.files.qualifier constant.file == qualifier
  | none => schema.model.constants.find? (·.name == name)

end Schema
end IdlSchema
