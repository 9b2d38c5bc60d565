import IdlSchema.Types.Builtin

/-!
# Type expressions

A type is a built-in type, a collection of types, a declared type, or the placeholder for a
reference that failed.  Declared types appear by an identity of any sort.
-/

namespace IdlSchema

/-- A type over the identities of declared types. -/
inductive TypeExpression (ι : Type) where
  | builtin (builtin : Builtin)
  | list (element : TypeExpression ι)
  | set (element : TypeExpression ι)
  | map (key value : TypeExpression ι)
  | user (identity : ι)
  | invalid
  deriving DecidableEq

namespace TypeExpression

variable {ι : Type}

/-- The declared types in an expression, from left to right. -/
def users : TypeExpression ι → List ι
  | builtin _ => []
  | list element => element.users
  | set element => element.users
  | map key value => key.users ++ value.users
  | user identity => [identity]
  | invalid => []

/-- The text of an expression, with given names for the declared types. -/
def text (name : ι → String) : TypeExpression ι → String
  | builtin b => b.keyword
  | list element => "list<" ++ element.text name ++ ">"
  | set element => "set<" ++ element.text name ++ ">"
  | map key value => "map<" ++ key.text name ++ ", " ++ value.text name ++ ">"
  | user identity => name identity
  | invalid => "<invalid>"

end TypeExpression
end IdlSchema
