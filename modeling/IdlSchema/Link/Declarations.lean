import IdlSchema.Diagnostic.Basic
import IdlSchema.Files.FileTable
import IdlSchema.Tree.TypeUse

/-!
# Declaring names

Before any reference is resolved, every declaration of every file gets its name.  A file may use a
type name once and a constant name once, and no keyword at all.  A declaration that is refused
stays known, because the types it refers to are checked all the same.
-/

namespace IdlSchema

/-- The place of a constant among all that are declared. -/
structure ConstantId where
  index : Nat
  deriving DecidableEq

/-- An attempt to declare something in a file: what it is known by, or why it was refused. -/
structure Declared (δ ι : Type) where
  file : FileId
  decl : δ
  result : Except Diagnostic ι

namespace Declared

variable {δ ι : Type}

/-- The declaration with what it is known by, if it was accepted. -/
def accepted? (declared : Declared δ ι) : Option (FileId × δ × ι) :=
  match declared.result with
  | .ok id => some (declared.file, declared.decl, id)
  | .error _ => none

/-- The declaration if it was refused. -/
def refused? (declared : Declared δ ι) : Option δ :=
  match declared.result with
  | .ok _ => none
  | .error _ => some declared.decl

/-- Why the declaration was refused. -/
def problem? (declared : Declared δ ι) : Option Diagnostic :=
  match declared.result with
  | .ok _ => none
  | .error problem => some problem

end Declared

/-- The names in use: the declared types, and the constants with their files in order. -/
structure Names where
  graph : TypeGraph
  constants : List (FileId × ConstantDecl)

/-- What became of the declarations of one file. -/
structure FileDeclarations where
  file : FileId
  typedefs : List (Declared TypedefDecl TypeId)
  enums : List (Declared EnumDecl TypeId)
  structs : List (Declared StructDecl TypeId)
  services : List (Declared ServiceDecl TypeId)
  constants : List (Declared ConstantDecl ConstantId)

namespace FileDeclarations

/-- Why declarations were refused, in order. -/
def problems (declarations : FileDeclarations) : Diagnostics :=
  declarations.typedefs.filterMap (·.problem?) ++
    declarations.enums.filterMap (·.problem?) ++
    declarations.structs.filterMap (·.problem?) ++
    declarations.services.filterMap (·.problem?) ++
    declarations.constants.filterMap (·.problem?)

/-- The types that refused declarations refer to, in order. -/
def refusedUses (declarations : FileDeclarations) : List (TypeUse × TypeReference) :=
  (declarations.typedefs.filterMap (·.refused?)).flatMap (·.uses) ++
    (declarations.structs.filterMap (·.refused?)).flatMap (·.uses) ++
    (declarations.services.filterMap (·.refused?)).flatMap (·.uses) ++
    (declarations.constants.filterMap (·.refused?)).flatMap (·.uses)

end FileDeclarations

namespace Names

/-- No names but the built-in ones. -/
def initial : Names :=
  { graph := .initial, constants := [] }

/-- The problem of a type whose name is a keyword. -/
def keywordTaken (header : Header) : Diagnostic :=
  (Diagnostic.detailed .duplicateSymbol header.location header.name).withHint
    "built-in type names cannot be redeclared"

/-- The problem of a name that was declared before, at a position if that is known. -/
def nameTaken (header : Header) (earlier? : Option Location) : Diagnostic :=
  let problem := Diagnostic.detailed .duplicateSymbol header.location header.name
  match earlier? with
  | some earlier => problem.relatedTo "first declared here" earlier
  | none => problem

/-- Declares a type. -/
def declareType (files : FileTable) (file : FileId) (header : Header) (kind : UserTypeKind) :
    StateM Names (Except Diagnostic TypeId) := fun names =>
  if (Builtin.ofKeyword? header.name).isSome then (.error (keywordTaken header), names)
  else
    let name : QualifiedName :=
      { file, qualifier := files.qualifier file, name := header.name }
    match TypeGraph.declare name kind header.location header.isDeprecated names.graph with
    | (.ok id, graph) => (.ok id, { names with graph })
    | (.error (.duplicateSymbol _ existing), _) =>
        (.error (nameTaken header ((names.graph.user? existing).map (·.location))), names)
    | (.error _, _) => (.error (nameTaken header none), names)

/-- The place of the constant that is declared with a name in a file. -/
def constant? (names : Names) (file : FileId) (name : String) : Option Nat :=
  names.constants.findIdx? fun (other, decl) => other == file && decl.header.name == name

/-- Declares a constant. -/
def declareConstant (file : FileId) (decl : ConstantDecl) :
    StateM Names (Except Diagnostic ConstantId) := fun names =>
  match names.constant? file decl.header.name with
  | some existing =>
      let earlier? := names.constants[existing]?.map fun (_, earlier) => earlier.header.location
      (.error (nameTaken decl.header earlier?), names)
  | none =>
      (.ok ⟨names.constants.length⟩,
        { names with constants := names.constants ++ [(file, decl)] })

/-- Declares types one after the other. -/
def declareTypes {δ : Type} (files : FileTable) (file : FileId) (header : δ → Header)
    (kind : δ → UserTypeKind) (decls : List δ) : StateM Names (List (Declared δ TypeId)) :=
  decls.mapM fun decl => do
    return { file, decl, result := ← declareType files file (header decl) (kind decl) }

/-- Declares everything in a file. -/
def declareFile (files : FileTable) (file : FileId) : StateM Names FileDeclarations := do
  let tree := ((files.get? file).map (·.tree)).getD default
  let types {δ : Type} (header : δ → Header) (kind : δ → UserTypeKind) (decls : List δ) :=
    declareTypes files file header kind decls
  return {
    file
    typedefs := ← types (·.header) (fun _ => .typedef) tree.typedefs
    enums := ← types (·.header) (fun _ => .enum) tree.enums
    structs := ← types (·.header) (fun struct => .struct struct.kind) tree.structs
    services := ← types (·.header) (fun _ => .service) tree.services
    constants := ← tree.constants.mapM fun decl => do
      return { file, decl, result := ← declareConstant file decl } }

/-- Declares everything in some files, in order. -/
def declareFiles (files : FileTable) (order : List FileId) :
    StateM Names (List FileDeclarations) :=
  order.mapM (declareFile files)

end Names
end IdlSchema
