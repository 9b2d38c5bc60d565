import IdlSchema.Files.FileTable

/-!
# Linked declarations

A model has the declarations of the files with every type reference replaced by a type of the
graph.  The values of its constants and defaults are either still literals or constant values:
the model is the same for both.
-/

namespace IdlSchema

/-- A checked value.  Constants that a literal refers to are part of the value. -/
inductive ConstantValue where
  | bool (value : Bool)
  | integer (value : Int64)
  | double (value : Float)
  | string (text : String)
  | enumMember (enum : TypeId) (name : String) (value : Int32)
  | list (items : List ConstantValue)
  | map (entries : List (ConstantValue × ConstantValue))
  | struct (fields : List (String × ConstantValue))
  deriving Inhabited

namespace ConstantValue

/-- The number of an integer or an enum member. -/
def integer? : ConstantValue → Option Int
  | integer value => some value.toInt
  | enumMember _ _ value => some value.toInt
  | _ => none

/-- The text of a string. -/
def string? : ConstantValue → Option String
  | string text => some text
  | _ => none

end ConstantValue

/-- A field of a struct, a parameter, or an exception. -/
structure Field (ν : Type) where
  header : Header
  id : Int16
  requiredness : Requiredness
  type : TypeId
  default? : Option ν

namespace Field

variable {ν : Type}

/-- The name of a field. -/
def name (field : Field ν) : String :=
  field.header.name

/-- Where a field is declared. -/
def location (field : Field ν) : Location :=
  field.header.location

/-- Whether a field must be present. -/
def isRequired (field : Field ν) : Bool :=
  field.requiredness == .required

end Field

/-- A constant. -/
structure Constant (ν : Type) where
  header : Header
  file : FileId
  type : TypeId
  value : ν

namespace Constant

/-- The name of a constant. -/
def name {ν : Type} (constant : Constant ν) : String :=
  constant.header.name

end Constant

/-- A typedef with the type it stands for, which may be a typedef too. -/
structure TypedefType where
  header : Header
  file : FileId
  id : TypeId
  target : TypeId

namespace TypedefType

/-- The name of a typedef. -/
def name (typedef : TypedefType) : String :=
  typedef.header.name

/-- Where a typedef is declared. -/
def location (typedef : TypedefType) : Location :=
  typedef.header.location

end TypedefType

/-- A member of an enum with its value. -/
structure EnumMember where
  header : Header
  value : Int32

namespace EnumMember

/-- The name of a member. -/
def name (member : EnumMember) : String :=
  member.header.name

/-- Where a member is declared. -/
def location (member : EnumMember) : Location :=
  member.header.location

end EnumMember

/-- An enum. -/
structure EnumType where
  header : Header
  file : FileId
  id : TypeId
  members : List EnumMember

namespace EnumType

/-- The name of an enum. -/
def name (enum : EnumType) : String :=
  enum.header.name

/-- The first member with a name. -/
def member? (enum : EnumType) (name : String) : Option EnumMember :=
  enum.members.find? (·.name == name)

/-- The first member with a value. -/
def memberByValue? (enum : EnumType) (value : Int) : Option EnumMember :=
  enum.members.find? (·.value.toInt == value)

end EnumType

/-- A struct, a union or an exception. -/
structure StructType (ν : Type) where
  header : Header
  file : FileId
  id : TypeId
  kind : StructKind
  fields : List (Field ν)

namespace StructType

variable {ν : Type}

/-- The name of a struct. -/
def name (struct : StructType ν) : String :=
  struct.header.name

/-- The first field with a name. -/
def field? (struct : StructType ν) (name : String) : Option (Field ν) :=
  struct.fields.find? (·.name == name)

end StructType

/-- A method of a service. -/
structure Method (ν : Type) where
  header : Header
  oneWay : Bool
  returnType : TypeId
  parameters : List (Field ν)
  exceptions : List (Field ν)

namespace Method

variable {ν : Type}

/-- The name of a method. -/
def name (method : Method ν) : String :=
  method.header.name

/-- Where a method is declared. -/
def location (method : Method ν) : Location :=
  method.header.location

end Method

/-- A service and the one it builds on. -/
structure ServiceType (ν : Type) where
  header : Header
  file : FileId
  id : TypeId
  base? : Option TypeId
  methods : List (Method ν)

namespace ServiceType

variable {ν : Type}

/-- The name of a service. -/
def name (service : ServiceType ν) : String :=
  service.header.name

/-- Where a service is declared. -/
def location (service : ServiceType ν) : Location :=
  service.header.location

/-- The first method with a name. -/
def method? (service : ServiceType ν) (name : String) : Option (Method ν) :=
  service.methods.find? (·.name == name)

end ServiceType

/-- The declarations of all files, each list in the order of the files and then of the source. -/
structure Model (ν : Type) where
  typedefs : List TypedefType
  enums : List EnumType
  structs : List (StructType ν)
  services : List (ServiceType ν)
  constants : List (Constant ν)

namespace Model

variable {ν : Type}

/-- The typedef that declares a type. -/
def typedef? (model : Model ν) (id : TypeId) : Option TypedefType :=
  model.typedefs.find? (·.id == id)

/-- The enum that declares a type. -/
def enum? (model : Model ν) (id : TypeId) : Option EnumType :=
  model.enums.find? (·.id == id)

/-- The struct, union or exception that declares a type. -/
def struct? (model : Model ν) (id : TypeId) : Option (StructType ν) :=
  model.structs.find? (·.id == id)

/-- The service that declares a type. -/
def service? (model : Model ν) (id : TypeId) : Option (ServiceType ν) :=
  model.services.find? (·.id == id)

/-- The structs, unions or exceptions alone. -/
def structsOfKind (model : Model ν) (kind : StructKind) : List (StructType ν) :=
  model.structs.filter (·.kind == kind)

end Model
end IdlSchema
