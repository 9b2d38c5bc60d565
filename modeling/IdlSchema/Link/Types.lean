import IdlSchema.Link.Declarations
import IdlSchema.Link.Scope
import IdlSchema.Model

/-!
# Linking types

Accepted declarations become a model whose constants and defaults are still literals.  The types
they refer to are added to the graph in the order in which they stand: typedefs, enums, structs,
services, then what refused declarations refer to, then constants.
-/

namespace IdlSchema

/--
The members of an enum and the problems of those whose value does not fit.  A member without a
value gets the next one, which is one more than that of the last member kept.
-/
def linkMembers : Int → List MemberDecl → List EnumMember × Diagnostics
  | _, [] => ([], [])
  | next, member :: rest =>
      let value := (member.value?.map (·.toInt)).getD next
      if Int32.minValue.toInt ≤ value ∧ value ≤ Int32.maxValue.toInt then
        let (members, problems) := linkMembers (value + 1) rest
        ({ header := member.header, value := .ofInt value } :: members, problems)
      else
        let problem := Diagnostic.detailed .typeMismatch member.header.location
          ("implicit value of `" ++ member.header.name ++ "` overflows i32")
        let (members, problems) := linkMembers next rest
        (members, problem :: problems)

namespace Scope

/-- Adds the type of a reference to the graph. -/
def link (scope : Scope) (file : FileId) (reference : TypeReference) : StateM TypeGraph TypeId :=
  TypeGraph.internExpression (scope.denote file reference)

/-- Marks a declared type as linked. -/
def finish (id : TypeId) : StateM TypeGraph Unit :=
  modify fun graph => graph.markResolved id

/-- Links a typedef. -/
def linkTypedef (scope : Scope) (file : FileId) (decl : TypedefDecl) (id : TypeId) :
    StateM TypeGraph TypedefType := do
  let target ← scope.link file decl.target
  modify fun graph => graph.setTarget id target
  finish id
  return { header := decl.header, file, id, target }

/-- Links an enum. -/
def linkEnum (file : FileId) (decl : EnumDecl) (id : TypeId) : StateM TypeGraph EnumType := do
  finish id
  return { header := decl.header, file, id, members := (linkMembers 0 decl.members).1 }

/-- Links a list of fields. -/
def linkFields (scope : Scope) (file : FileId) (decls : List FieldDecl) :
    StateM TypeGraph (List (Field Literal)) :=
  decls.mapM fun decl => do
    return {
      header := decl.header
      id := decl.id
      requiredness := decl.requiredness
      type := ← scope.link file decl.type
      default? := decl.default? }

/-- Links a struct, a union or an exception. -/
def linkStruct (scope : Scope) (file : FileId) (decl : StructDecl) (id : TypeId) :
    StateM TypeGraph (StructType Literal) := do
  let fields ← scope.linkFields file decl.fields
  finish id
  return { header := decl.header, file, id, kind := decl.kind, fields }

/-- Links a function of a service. -/
def linkMethod (scope : Scope) (file : FileId) (decl : FunctionDecl) :
    StateM TypeGraph (Method Literal) := do
  return {
    header := decl.header
    oneWay := decl.oneWay
    returnType := ← scope.link file decl.returnType
    parameters := ← scope.linkFields file decl.parameters
    exceptions := ← scope.linkFields file decl.exceptions }

/-- Links the base of a service; one that failed is left out. -/
def linkBase (scope : Scope) (file : FileId) : Option TypeReference →
    StateM TypeGraph (Option TypeId)
  | none => return none
  | some reference => do
      let base ← scope.link file reference
      return if base = .invalid then none else some base

/-- Links a service. -/
def linkService (scope : Scope) (file : FileId) (decl : ServiceDecl) (id : TypeId) :
    StateM TypeGraph (ServiceType Literal) := do
  let base? ← scope.linkBase file decl.base?
  let methods ← decl.functions.mapM (scope.linkMethod file)
  finish id
  return { header := decl.header, file, id, base?, methods }

/-- Links a constant. -/
def linkConstant (scope : Scope) (file : FileId) (decl : ConstantDecl) :
    StateM TypeGraph (Constant Literal) := do
  return {
    header := decl.header
    file
    type := ← scope.link file decl.type
    value := decl.value }

/-- Adds the types that refused declarations of a file refer to. -/
def linkRefused (scope : Scope) (declarations : FileDeclarations) : StateM TypeGraph Unit :=
  declarations.refusedUses.forM fun use => do
    let _ ← scope.link declarations.file use.2

/-- Applies a linking step to all accepted declarations. -/
def linkAccepted {δ ι α : Type} (declared : List (Declared δ ι))
    (link : FileId → δ → ι → StateM TypeGraph α) : StateM TypeGraph (List α) :=
  (declared.filterMap (·.accepted?)).mapM fun (file, decl, id) => link file decl id

/-- The model of all accepted declarations. -/
def linkTypes (scope : Scope) (all : List FileDeclarations) :
    StateM TypeGraph (Model Literal) := do
  let typedefs ← linkAccepted (all.flatMap (·.typedefs)) scope.linkTypedef
  let enums ← linkAccepted (all.flatMap (·.enums)) linkEnum
  let structs ← linkAccepted (all.flatMap (·.structs)) scope.linkStruct
  let services ← linkAccepted (all.flatMap (·.services)) scope.linkService
  all.forM scope.linkRefused
  let constants ← linkAccepted (all.flatMap (·.constants)) fun file decl _ =>
    scope.linkConstant file decl
  return { typedefs, enums, structs, services, constants }

/-- The problems of the types that some accepted declarations refer to. -/
def acceptedProblems {δ ι : Type} (scope : Scope) (declared : List (Declared δ ι))
    (uses : δ → List (TypeUse × TypeReference)) : Diagnostics :=
  (declared.filterMap (·.accepted?)).flatMap fun (file, decl, _) =>
    (uses decl).flatMap (scope.useProblems file)

/-- The problems of the values of accepted enums. -/
def memberProblems (declared : List (Declared EnumDecl TypeId)) : Diagnostics :=
  (declared.filterMap (·.accepted?)).flatMap fun (_, decl, _) => (linkMembers 0 decl.members).2

/-- The problems of linking types, in the order in which types are linked. -/
def typeProblems (scope : Scope) (all : List FileDeclarations) : Diagnostics :=
  scope.acceptedProblems (all.flatMap (·.typedefs)) (·.uses) ++
    memberProblems (all.flatMap (·.enums)) ++
    scope.acceptedProblems (all.flatMap (·.structs)) (·.uses) ++
    scope.acceptedProblems (all.flatMap (·.services)) (·.uses) ++
    (all.flatMap fun declarations =>
      declarations.refusedUses.flatMap (scope.useProblems declarations.file)) ++
    scope.acceptedProblems (all.flatMap (·.constants)) (·.uses)

end Scope
end IdlSchema
