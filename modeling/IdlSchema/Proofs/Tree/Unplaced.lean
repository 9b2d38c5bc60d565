import IdlSchema.Diagnostic.Basic
import IdlSchema.Tree.TypeUse

/-!
# Files and problems without positions

What is written is left as it is but for where it stands: every position becomes the same one.  Two
files differ in positions alone if they are the same without positions.
-/

namespace IdlSchema

/-- The position of what has none. -/
def Location.nowhere : Location :=
  .start ""

/-! ## What is written -/

/-- A header without its position. -/
def Header.unplaced (header : Header) : Header :=
  { header with location := .nowhere }

/-- A type reference without positions. -/
def TypeReference.unplaced : TypeReference → TypeReference
  | named _ name annotations => named .nowhere name annotations
  | list _ element annotations => list .nowhere element.unplaced annotations
  | set _ element annotations => set .nowhere element.unplaced annotations
  | map _ key value annotations => map .nowhere key.unplaced value.unplaced annotations

namespace Literal

mutual

/-- A literal without positions. -/
def unplaced : Literal → Literal
  | integer _ i => integer .nowhere i
  | double _ x => double .nowhere x
  | string _ text => string .nowhere text
  | identifier _ name => identifier .nowhere name
  | list _ items => list .nowhere (itemsUnplaced items)
  | map _ entries => map .nowhere (entriesUnplaced entries)

/-- Literals without positions. -/
def itemsUnplaced : List Literal → List Literal
  | [] => []
  | item :: items => item.unplaced :: itemsUnplaced items

/-- Entries without positions. -/
def entriesUnplaced : List (Literal × Literal) → List (Literal × Literal)
  | [] => []
  | (key, value) :: entries => (key.unplaced, value.unplaced) :: entriesUnplaced entries

end

@[simp]
theorem location_unplaced (literal : Literal) : literal.unplaced.location = .nowhere := by
  cases literal <;> rw [unplaced] <;> rfl

@[simp]
theorem description_unplaced (literal : Literal) :
    literal.unplaced.description = literal.description := by
  cases literal <;> rw [unplaced] <;> rfl

end Literal

/-- A field without positions. -/
def FieldDecl.unplaced (decl : FieldDecl) : FieldDecl :=
  { decl with
    header := decl.header.unplaced
    type := decl.type.unplaced
    default? := decl.default?.map Literal.unplaced }

/-- A function without positions. -/
def FunctionDecl.unplaced (decl : FunctionDecl) : FunctionDecl :=
  { decl with
    header := decl.header.unplaced
    returnType := decl.returnType.unplaced
    parameters := decl.parameters.map FieldDecl.unplaced
    exceptions := decl.exceptions.map FieldDecl.unplaced }

/-- A member of an enum without its position. -/
def MemberDecl.unplaced (decl : MemberDecl) : MemberDecl :=
  { decl with header := decl.header.unplaced }

/-- An enum without positions. -/
def EnumDecl.unplaced (decl : EnumDecl) : EnumDecl :=
  { header := decl.header.unplaced, members := decl.members.map MemberDecl.unplaced }

/-- A struct, a union or an exception without positions. -/
def StructDecl.unplaced (decl : StructDecl) : StructDecl :=
  { decl with header := decl.header.unplaced, fields := decl.fields.map FieldDecl.unplaced }

/-- A typedef without positions. -/
def TypedefDecl.unplaced (decl : TypedefDecl) : TypedefDecl :=
  { header := decl.header.unplaced, target := decl.target.unplaced }

/-- A service without positions. -/
def ServiceDecl.unplaced (decl : ServiceDecl) : ServiceDecl :=
  { header := decl.header.unplaced
    base? := decl.base?.map TypeReference.unplaced
    functions := decl.functions.map FunctionDecl.unplaced }

/-- A constant without positions. -/
def ConstantDecl.unplaced (decl : ConstantDecl) : ConstantDecl :=
  { header := decl.header.unplaced, type := decl.type.unplaced, value := decl.value.unplaced }

/-- An include directive without its position. -/
def IncludeDecl.unplaced (inclusion : IncludeDecl) : IncludeDecl :=
  { inclusion with location := .nowhere }

/-- A namespace without its position. -/
def NamespaceDecl.unplaced (decl : NamespaceDecl) : NamespaceDecl :=
  { decl with location := .nowhere }

namespace FileTree

/-- A file without positions; it does not name itself either. -/
def unplaced (tree : FileTree) : FileTree :=
  { location := .nowhere
    namespaces := tree.namespaces.map NamespaceDecl.unplaced
    includes := tree.includes.map IncludeDecl.unplaced
    constants := tree.constants.map ConstantDecl.unplaced
    typedefs := tree.typedefs.map TypedefDecl.unplaced
    enums := tree.enums.map EnumDecl.unplaced
    structs := tree.structs.map StructDecl.unplaced
    services := tree.services.map ServiceDecl.unplaced }

/-- A root without positions, under the path by which it names itself. -/
def unplacedRoot (tree : FileTree) : String × FileTree :=
  (tree.path, tree.unplaced)

end FileTree

/-! ## References in their positions -/

/-- A use of a type without positions. -/
def unplacedUse (use : TypeUse × TypeReference) : TypeUse × TypeReference :=
  (use.1, use.2.unplaced)

@[simp]
theorem fieldUses_unplaced (use : TypeUse) (decls : List FieldDecl) :
    fieldUses use (decls.map FieldDecl.unplaced) = (fieldUses use decls).map unplacedUse := by
  rw [fieldUses, fieldUses, List.map_map, List.map_map]
  rfl

@[simp]
theorem TypedefDecl.uses_unplaced (decl : TypedefDecl) :
    decl.unplaced.uses = decl.uses.map unplacedUse :=
  rfl

@[simp]
theorem StructDecl.uses_unplaced (decl : StructDecl) :
    decl.unplaced.uses = decl.uses.map unplacedUse :=
  fieldUses_unplaced .field decl.fields

@[simp]
theorem FunctionDecl.uses_unplaced (decl : FunctionDecl) :
    decl.unplaced.uses = decl.uses.map unplacedUse := by
  simp only [uses, unplaced, fieldUses_unplaced, List.map_cons, List.map_append]
  rfl

@[simp]
theorem ServiceDecl.uses_unplaced (decl : ServiceDecl) :
    decl.unplaced.uses = decl.uses.map unplacedUse := by
  have functions : (decl.functions.map FunctionDecl.unplaced).flatMap (·.uses) =
      (decl.functions.flatMap (·.uses)).map unplacedUse := by
    simp only [List.flatMap_map, List.map_flatMap, FunctionDecl.uses_unplaced]
  rw [uses, uses, List.map_append, ← functions]
  cases h : decl.base? <;> simp [unplaced, unplacedUse, h]

@[simp]
theorem ConstantDecl.uses_unplaced (decl : ConstantDecl) :
    decl.unplaced.uses = decl.uses.map unplacedUse :=
  rfl

/-! ## What is reported -/

namespace Diagnostic

/-- A problem without positions. -/
def unplaced (problem : Diagnostic) : Diagnostic :=
  { problem with
    location := .nowhere
    related := problem.related.map fun related => { related with location := .nowhere } }

variable (problem : Diagnostic)

@[simp]
theorem unplaced_unplaced : problem.unplaced.unplaced = problem.unplaced := by
  simp [unplaced]

@[simp]
theorem unplaced_detailed (kind : DiagnosticKind) (location : Location) (detail : String) :
    (detailed kind location detail).unplaced = detailed kind .nowhere detail :=
  rfl

@[simp]
theorem unplaced_relatedTo (message : String) (location : Location) :
    (problem.relatedTo message location).unplaced = problem.unplaced.relatedTo message .nowhere := by
  rw [unplaced, unplaced, relatedTo, relatedTo, List.map_append]
  rfl

/-- Positions of related declarations do not matter for what is said of them. -/
theorem unplaced_foldl_relatedTo {α : Type} (message : α → String) (location : α → Location)
    (list : List α) : (list.foldl
      (fun problem a => problem.relatedTo (message a) (location a)) problem).unplaced =
    list.foldl (fun problem a => problem.relatedTo (message a) .nowhere) problem.unplaced := by
  induction list generalizing problem with
  | nil => rfl
  | cons a list induction => rw [List.foldl_cons, List.foldl_cons, induction, unplaced_relatedTo]

end Diagnostic
end IdlSchema
