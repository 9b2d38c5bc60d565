import IdlSchema.Model
import IdlSchema.Proofs.StateRuns

/-!
# Models that are alike

Declarations are alike if they are the same but for the types and the values in them, which are
related in a given way.  Models are alike if their declarations are, one to one and in any order.
-/

namespace IdlSchema

/-- A value is the same as another, with related types for those of its enum members. -/
inductive ConstantValue.Alike (types : TypeId → TypeId → Prop) :
    ConstantValue → ConstantValue → Prop where
  | bool (value : Bool) : Alike types (.bool value) (.bool value)
  | integer (value : Int64) : Alike types (.integer value) (.integer value)
  | double (value : Float) : Alike types (.double value) (.double value)
  | string (text : String) : Alike types (.string text) (.string text)
  | enumMember {enum enum' : TypeId} (name : String) (value : Int32) : types enum enum' →
      Alike types (.enumMember enum name value) (.enumMember enum' name value)
  | list {items items' : List ConstantValue} : List.Forall₂ (Alike types) items items' →
      Alike types (.list items) (.list items')
  | map {entries entries' : List (ConstantValue × ConstantValue)} :
      List.Forall₂ (Alike types) (entries.map Prod.fst) (entries'.map Prod.fst) →
      List.Forall₂ (Alike types) (entries.map Prod.snd) (entries'.map Prod.snd) →
      Alike types (.map entries) (.map entries')
  | struct {fields fields' : List (String × ConstantValue)} :
      fields'.map Prod.fst = fields.map Prod.fst →
      List.Forall₂ (Alike types) (fields.map Prod.snd) (fields'.map Prod.snd) →
      Alike types (.struct fields) (.struct fields')

section

variable {ν : Type} (types : TypeId → TypeId → Prop) (values : ν → ν → Prop)

/-- A field is the same as another with a related type and a related default. -/
structure Field.Alike (field field' : Field ν) : Prop where
  header : field'.header = field.header
  id : field'.id = field.id
  requiredness : field'.requiredness = field.requiredness
  type : types field.type field'.type
  default? : Option.Rel values field.default? field'.default?

/-- A typedef is the same as another with a related target. -/
structure TypedefType.Alike (typedef typedef' : TypedefType) : Prop where
  header : typedef'.header = typedef.header
  file : typedef'.file = typedef.file
  id : types typedef.id typedef'.id
  target : types typedef.target typedef'.target

/-- An enum is the same as another. -/
structure EnumType.Alike (enum enum' : EnumType) : Prop where
  header : enum'.header = enum.header
  file : enum'.file = enum.file
  id : types enum.id enum'.id
  members : enum'.members = enum.members

/-- A struct is the same as another with fields that are alike. -/
structure StructType.Alike (struct struct' : StructType ν) : Prop where
  header : struct'.header = struct.header
  file : struct'.file = struct.file
  id : types struct.id struct'.id
  kind : struct'.kind = struct.kind
  fields : List.Forall₂ (Field.Alike types values) struct.fields struct'.fields

/-- A method is the same as another with a related type and fields that are alike. -/
structure Method.Alike (method method' : Method ν) : Prop where
  header : method'.header = method.header
  oneWay : method'.oneWay = method.oneWay
  returnType : types method.returnType method'.returnType
  parameters : List.Forall₂ (Field.Alike types values) method.parameters method'.parameters
  exceptions : List.Forall₂ (Field.Alike types values) method.exceptions method'.exceptions

/-- A service is the same as another with a related base and methods that are alike. -/
structure ServiceType.Alike (service service' : ServiceType ν) : Prop where
  header : service'.header = service.header
  file : service'.file = service.file
  id : types service.id service'.id
  base? : Option.Rel types service.base? service'.base?
  methods : List.Forall₂ (Method.Alike types values) service.methods service'.methods

/-- A constant is the same as another with a related type and a related value. -/
structure Constant.Alike (constant constant' : Constant ν) : Prop where
  header : constant'.header = constant.header
  file : constant'.file = constant.file
  type : types constant.type constant'.type
  value : values constant.value constant'.value

/-- The declarations of two models are alike, one to one. -/
structure Model.Alike (model model' : Model ν) : Prop where
  typedefs : Corresponds (TypedefType.Alike types) model.typedefs model'.typedefs
  enums : Corresponds (EnumType.Alike types) model.enums model'.enums
  structs : Corresponds (StructType.Alike types values) model.structs model'.structs
  services : Corresponds (ServiceType.Alike types values) model.services model'.services
  constants : Corresponds (Constant.Alike types values) model.constants model'.constants

end

section

variable {ν : Type} {types : TypeId → TypeId → Prop} {values : ν → ν → Prop}

theorem Field.Alike.name {field field' : Field ν} (alike : field.Alike types values field') :
    field'.name = field.name :=
  congrArg Header.name alike.header

theorem Constant.Alike.name {constant constant' : Constant ν}
    (alike : constant.Alike types values constant') : constant'.name = constant.name :=
  congrArg Header.name alike.header

end
end IdlSchema
