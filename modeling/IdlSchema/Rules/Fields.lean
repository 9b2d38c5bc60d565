import IdlSchema.Diagnostic.Basic
import IdlSchema.Model
import IdlSchema.Rules.Repetition

/-!
# Rules for fields

In one list of fields no identifier and no name is repeated.  A field of a union is not required,
and at most one of them has a default.
-/

namespace IdlSchema

/-- What a list of fields belongs to, which shows in messages alone. -/
inductive FieldRole where
  | field
  | parameter
  | exception
  deriving DecidableEq

namespace FieldRole

/-- The word for a field in its role. -/
def noun : FieldRole → String
  | field => "field"
  | parameter => "param"
  | exception => "exception"

end FieldRole

namespace Field

variable {ν : Type}

/-- The problem of a field whose identifier an earlier one has. -/
def repeatedId (role : FieldRole) (field first : Field ν) : Diagnostic :=
  (Diagnostic.detailed .duplicateFieldId field.location
    (role.noun ++ " `" ++ field.name ++ "` has the same id (" ++ toString field.id.toInt ++
      ") as " ++ role.noun ++ " `" ++ first.name ++ "`")).relatedTo
    ("`" ++ first.name ++ "` is declared here") first.location

/-- The problem of a field whose name an earlier one has. -/
def repeatedName (role : FieldRole) (field first : Field ν) : Diagnostic :=
  (Diagnostic.detailed .duplicateFieldName field.location
    (role.noun ++ " `" ++ field.name ++ "` is declared more than once")).relatedTo
    "first declared here" first.location

/-- The problems of a field behind earlier ones. -/
def repetitions (role : FieldRole) (earlier : List (Field ν)) (field : Field ν) : Diagnostics :=
  ((firstWithKey? (·.id) earlier field).map (repeatedId role field)).toList ++
    ((firstWithKey? (·.name) earlier field).map (repeatedName role field)).toList

/-- The problems of repeated identifiers and names in a list of fields. -/
def listProblems (role : FieldRole) (fields : List (Field ν)) : Diagnostics :=
  (withEarlier fields).flatMap fun (earlier, field) => repetitions role earlier field

end Field

namespace StructType

variable {ν : Type}

/-- The problem of a field of a union that is required. -/
def requiredMember (field : Field ν) : Diagnostic :=
  .detailed .invalidUnionField field.location
    ("union member `" ++ field.name ++ "` cannot be required")

/-- The problem of a field of a union with a default behind one that has a default too. -/
def secondDefault (union : StructType ν) (field first : Field ν) : Diagnostic :=
  (Diagnostic.detailed .invalidUnionField field.location
    ("union `" ++ union.name ++ "` has more than one default value")).relatedTo
    ("`" ++ first.name ++ "` has a default") first.location

/-- The problems of a field of a union behind earlier ones. -/
def memberProblems (union : StructType ν) (earlier : List (Field ν)) (field : Field ν) :
    Diagnostics :=
  let required := if field.isRequired then [requiredMember field] else []
  let defaults :=
    if field.default?.isSome then
      ((earlier.find? (·.default?.isSome)).map (secondDefault union field)).toList
    else []
  required ++ defaults

/-- The problems of the fields of a union. -/
def unionProblems (union : StructType ν) : Diagnostics :=
  (withEarlier union.fields).flatMap fun (earlier, field) => union.memberProblems earlier field

/-- The problems of a struct, a union or an exception. -/
def problems (struct : StructType ν) : Diagnostics :=
  Field.listProblems .field struct.fields ++
    if struct.kind = .union then struct.unionProblems else []

end StructType
end IdlSchema
