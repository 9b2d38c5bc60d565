import IdlSchema.Diagnostic.Basic
import IdlSchema.Files.FileTable
import IdlSchema.Tree.TypeUse

/-!
# What names stand for

A name in a file is a keyword, or it is qualified and belongs to the one included file with that
qualifier, or it is declared in the file itself, or else in exactly one file that it includes.
What a type reference stands for and which problems it has are both read off its form; neither
depends on anything but the files and the declared types.
-/

namespace IdlSchema

/-- The files, the declared types, and whether the use of deprecated ones is reported. -/
structure Scope where
  files : FileTable
  graph : TypeGraph
  warnDeprecated : Bool

/-- Why a name stands for no type. -/
inductive NameFailure where
  | unknown
  | unknownQualifier (qualifier : String)
  | sharedQualifier (qualifier : String) (files : List FileId)
  | declaredTwice (types : List TypeId)

namespace Scope

/-- The included files of a file with a qualifier. -/
def includesQualified (scope : Scope) (file : FileId) (qualifier : String) : List FileId :=
  (scope.files.includes file).filter fun included => scope.files.qualifier included == qualifier

/-- What a qualified name stands for. -/
def resolveQualified (scope : Scope) (file : FileId) (qualifier name : String) :
    Except NameFailure TypeId :=
  match scope.includesQualified file qualifier with
  | [] => .error (.unknownQualifier qualifier)
  | [included] =>
      match scope.graph.lookup included name with
      | some id => .ok id
      | none => .error .unknown
  | files => .error (.sharedQualifier qualifier files)

/-- What a name without qualifier stands for. -/
def resolveUnqualified (scope : Scope) (file : FileId) (name : String) :
    Except NameFailure TypeId :=
  match scope.graph.lookup file name with
  | some id => .ok id
  | none =>
      match (scope.files.includes file).filterMap (scope.graph.lookup · name) with
      | [] => .error .unknown
      | [id] => .ok id
      | types => .error (.declaredTwice types)

/-- What a name that is no keyword stands for; it is qualified if it contains a point. -/
def resolveDeclared (scope : Scope) (file : FileId) (name : String) :
    Except NameFailure TypeId :=
  match Text.splitFirst? name with
  | some (qualifier, rest) => scope.resolveQualified file qualifier rest
  | none => scope.resolveUnqualified file name

/-- What a name stands for in a file. -/
def resolveName (scope : Scope) (file : FileId) (name : String) :
    Except NameFailure (TypeExpression TypeId) :=
  match Builtin.ofKeyword? name with
  | some builtin => .ok (.builtin builtin)
  | none => (scope.resolveDeclared file name).map .user

/-- The type that a reference in a file stands for, with the placeholder where a name fails. -/
def denote (scope : Scope) (file : FileId) : TypeReference → TypeExpression TypeId
  | .named _ name _ =>
      match scope.resolveName file name with
      | .ok expression => expression
      | .error _ => .invalid
  | .list _ element _ => .list (scope.denote file element)
  | .set _ element _ => .set (scope.denote file element)
  | .map _ key value _ => .map (scope.denote file key) (scope.denote file value)

/-- The problem of a name that stands for no type. -/
def failure (scope : Scope) (name : String) (location : Location) : NameFailure → Diagnostic
  | .unknown => .detailed .unresolvedType location name
  | .unknownQualifier qualifier =>
      (Diagnostic.detailed .unresolvedType location name).withHint
        ("no included file has the prefix `" ++ qualifier ++ "`")
  | .sharedQualifier qualifier files =>
      files.foldl
        (fun diagnostic file =>
          let path := scope.files.path file
          diagnostic.relatedTo ("`" ++ qualifier ++ "` may refer to `" ++ path ++ "`")
            (.start path))
        (.detailed .ambiguousType location name)
  | .declaredTwice types =>
      (types.filterMap scope.graph.user?).foldl
        (fun diagnostic user =>
          diagnostic.relatedTo ("`" ++ user.name.text ++ "` is declared here") user.location)
        (.detailed .ambiguousType location name)

/-- The warning for a use of a declared type, if it is deprecated and warnings are wanted. -/
def deprecation (scope : Scope) (location : Location) (id : TypeId) : Diagnostics :=
  match scope.graph.user? id with
  | some user =>
      if scope.warnDeprecated && user.deprecated then
        [.detailed .deprecatedUsage location user.name.text]
      else []
  | none => []

/-- The problems of a name. -/
def nameProblems (scope : Scope) (file : FileId) (name : String) (location : Location) :
    Diagnostics :=
  match scope.resolveName file name with
  | .ok (.user id) => scope.deprecation location id
  | .ok _ => []
  | .error cause => [scope.failure name location cause]

/-- The problem of storing a value of a type that has no values. -/
def valueProblems (scope : Scope) (position : String) (location : Location) :
    TypeExpression TypeId → Diagnostics
  | .builtin .void =>
      [.detailed .invalidFieldType location ("`void` cannot be used as a " ++ position ++ " type")]
  | .user id =>
      if scope.graph.kind? id = some .service then
        [.detailed .invalidFieldType location
          ("service `" ++ scope.graph.typeName id ++ "` cannot be used as a " ++ position ++
            " type")]
      else []
  | _ => []

/-- The problems of storing values of a type in a collection. -/
def elementProblems (scope : Scope) (file : FileId) (element : TypeReference) : Diagnostics :=
  scope.valueProblems "collection element" element.location (scope.denote file element)

/-- The problems of a type reference on its own, from left to right. -/
def referenceProblems (scope : Scope) (file : FileId) : TypeReference → Diagnostics
  | .named location name _ => scope.nameProblems file name location
  | .list _ element _ =>
      scope.referenceProblems file element ++ scope.elementProblems file element
  | .set _ element _ =>
      scope.referenceProblems file element ++ scope.elementProblems file element
  | .map _ key value _ =>
      scope.referenceProblems file key ++ scope.elementProblems file key ++
        (scope.referenceProblems file value ++ scope.elementProblems file value)

/-- The problems of a type reference in its position. -/
def useProblems (scope : Scope) (file : FileId) (use : TypeUse × TypeReference) : Diagnostics :=
  scope.referenceProblems file use.2 ++
    match use.1.valuePosition? with
    | some position =>
        scope.valueProblems position use.2.location (scope.denote file use.2)
    | none => []

end Scope
end IdlSchema
