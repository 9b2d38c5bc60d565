import IdlSchema.Tree.Header
import IdlSchema.Tree.Literal
import IdlSchema.Tree.TypeReference

/-!
# Declarations as they are written

One type for each construct of an IDL file.  Nothing here is resolved: types and constants are
referred to by their written names.  Declarations agree when they are equal up to positions.
-/

namespace IdlSchema

/-- Whether a field must be present. -/
inductive Requiredness where
  | required
  | optional
  | default
  deriving DecidableEq, Inhabited

namespace Requiredness

/-- The keyword of a requiredness. -/
def text : Requiredness → String
  | required => "required"
  | optional => "optional"
  | default => "default"

/-- The requiredness with a given keyword. -/
def ofText? (text : String) : Option Requiredness :=
  [required, optional, default].find? (·.text == text)

end Requiredness

/-- The three constructs that have fields. -/
inductive StructKind where
  | struct
  | union
  | exception
  deriving DecidableEq, Inhabited

namespace StructKind

/-- The keyword of a construct. -/
def text : StructKind → String
  | struct => "struct"
  | union => "union"
  | exception => "exception"

/-- The construct with a given keyword. -/
def ofText? (text : String) : Option StructKind :=
  [struct, union, exception].find? (·.text == text)

end StructKind

/-- Equality of lists element by element, by a given equality. -/
def listAgrees {α : Type} (agrees : α → α → Bool) : List α → List α → Bool
  | [], [] => true
  | a :: as, b :: bs => agrees a b && listAgrees agrees as bs
  | _, _ => false

/-- Equality of optional values by a given equality. -/
def optionAgrees {α : Type} (agrees : α → α → Bool) : Option α → Option α → Bool
  | none, none => true
  | some a, some b => agrees a b
  | _, _ => false

/-- A field, a parameter of a function or an exception it may throw. -/
structure FieldDecl where
  header : Header
  id : Int16
  requiredness : Requiredness
  type : TypeReference
  default? : Option Literal

namespace FieldDecl

/-- Equality up to positions. -/
def agrees (a b : FieldDecl) : Bool :=
  a.header.agrees b.header && a.id == b.id && a.requiredness == b.requiredness &&
    a.type.agrees b.type && optionAgrees Literal.agrees a.default? b.default?

end FieldDecl

/-- A function of a service. -/
structure FunctionDecl where
  header : Header
  oneWay : Bool
  returnType : TypeReference
  parameters : List FieldDecl
  exceptions : List FieldDecl

namespace FunctionDecl

/-- Equality up to positions. -/
def agrees (a b : FunctionDecl) : Bool :=
  a.header.agrees b.header && a.oneWay == b.oneWay && a.returnType.agrees b.returnType &&
    listAgrees FieldDecl.agrees a.parameters b.parameters &&
    listAgrees FieldDecl.agrees a.exceptions b.exceptions

end FunctionDecl

/-- A member of an enum; one without a value goes on from the member before it. -/
structure MemberDecl where
  header : Header
  value? : Option Int32

namespace MemberDecl

/-- Equality up to positions. -/
def agrees (a b : MemberDecl) : Bool :=
  a.header.agrees b.header && a.value? == b.value?

end MemberDecl

/-- An enum. -/
structure EnumDecl where
  header : Header
  members : List MemberDecl

namespace EnumDecl

/-- Equality up to positions. -/
def agrees (a b : EnumDecl) : Bool :=
  a.header.agrees b.header && listAgrees MemberDecl.agrees a.members b.members

end EnumDecl

/-- A struct, a union or an exception. -/
structure StructDecl where
  header : Header
  kind : StructKind
  fields : List FieldDecl

namespace StructDecl

/-- Equality up to positions. -/
def agrees (a b : StructDecl) : Bool :=
  a.header.agrees b.header && a.kind == b.kind && listAgrees FieldDecl.agrees a.fields b.fields

end StructDecl

/-- Another name for a type. -/
structure TypedefDecl where
  header : Header
  target : TypeReference

namespace TypedefDecl

/-- Equality up to positions. -/
def agrees (a b : TypedefDecl) : Bool :=
  a.header.agrees b.header && a.target.agrees b.target

end TypedefDecl

/-- A service, which may build on another one. -/
structure ServiceDecl where
  header : Header
  base? : Option TypeReference
  functions : List FunctionDecl

namespace ServiceDecl

/-- Equality up to positions. -/
def agrees (a b : ServiceDecl) : Bool :=
  a.header.agrees b.header && optionAgrees TypeReference.agrees a.base? b.base? &&
    listAgrees FunctionDecl.agrees a.functions b.functions

end ServiceDecl

/-- A constant. -/
structure ConstantDecl where
  header : Header
  type : TypeReference
  value : Literal

namespace ConstantDecl

/-- Equality up to positions. -/
def agrees (a b : ConstantDecl) : Bool :=
  a.header.agrees b.header && a.type.agrees b.type && a.value.agrees b.value

end ConstantDecl
end IdlSchema
