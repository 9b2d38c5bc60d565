import IdlSchema.Link.Scope
import IdlSchema.Proofs.Files.Unplaced
import IdlSchema.Proofs.Link.Names
import IdlSchema.Proofs.Types.Unplaced

/-!
# Names without positions

What a reference stands for and which problems it has do not depend on positions, and neither does
which declarations are accepted.
-/

namespace IdlSchema

namespace Scope

/-- The scope without positions. -/
def unplaced (scope : Scope) : Scope :=
  { scope with files := scope.files.unplaced, graph := scope.graph.unplaced }

variable (scope : Scope) (file : FileId)

@[simp]
theorem resolveName_unplaced (name : String) :
    scope.unplaced.resolveName file name = scope.resolveName file name := by
  have qualified (qualifier rest : String) :
      scope.unplaced.resolveQualified file qualifier rest =
        scope.resolveQualified file qualifier rest := by
    simp only [resolveQualified, includesQualified, unplaced, FileTable.includes_unplaced,
      FileTable.qualifier_unplaced, TypeGraph.lookup_unplaced]
  have unqualified : scope.unplaced.resolveUnqualified file name =
      scope.resolveUnqualified file name := by
    simp only [resolveUnqualified, unplaced, FileTable.includes_unplaced, TypeGraph.lookup_unplaced]
  simp only [resolveName, resolveDeclared, qualified, unqualified]

@[simp]
theorem denote_unplaced (reference : TypeReference) :
    scope.unplaced.denote file reference.unplaced = scope.denote file reference := by
  induction reference with
  | named _ name _ => rw [TypeReference.unplaced, denote, denote, resolveName_unplaced]
  | list _ element _ induction => rw [TypeReference.unplaced, denote, denote, induction]
  | set _ element _ induction => rw [TypeReference.unplaced, denote, denote, induction]
  | map _ key value _ induction induction' =>
      rw [TypeReference.unplaced, denote, denote, induction, induction']

/-! ## Problems of references -/

theorem failure_unplaced (name : String) (location location' : Location) (cause : NameFailure) :
    (scope.unplaced.failure name location cause).unplaced =
      (scope.failure name location' cause).unplaced := by
  cases cause with
  | unknown => rfl
  | unknownQualifier qualifier => rfl
  | sharedQualifier qualifier files =>
      simp only [failure, Diagnostic.unplaced_foldl_relatedTo, Diagnostic.unplaced_detailed,
        unplaced, FileTable.path_unplaced]
  | declaredTwice types =>
      have users : types.filterMap scope.unplaced.graph.user? =
          (types.filterMap scope.graph.user?).map UserType.unplaced := by
        rw [List.map_filterMap]
        exact List.filterMap_congr fun id _ => scope.graph.user?_unplaced id
      simp only [failure, Diagnostic.unplaced_foldl_relatedTo, Diagnostic.unplaced_detailed, users,
        List.foldl_map]
      rfl

theorem nameProblems_unplaced (name : String) (location location' : Location) :
    (scope.unplaced.nameProblems file name location).map Diagnostic.unplaced =
      (scope.nameProblems file name location').map Diagnostic.unplaced := by
  rw [nameProblems, nameProblems, resolveName_unplaced]
  cases scope.resolveName file name with
  | error cause => exact congrArg ([·]) (scope.failure_unplaced name location location' cause)
  | ok expression =>
      cases expression with
      | user id =>
          have user : scope.unplaced.graph.user? id = (scope.graph.user? id).map UserType.unplaced :=
            scope.graph.user?_unplaced id
          dsimp only
          rw [deprecation, deprecation, user]
          cases scope.graph.user? id with
          | none => rfl
          | some user =>
              by_cases warned : scope.warnDeprecated && user.deprecated
              · simp [unplaced, UserType.unplaced, warned]
              · simp [unplaced, UserType.unplaced, warned]
      | _ => rfl

theorem valueProblems_unplaced (position : String) (location location' : Location)
    (expression : TypeExpression TypeId) :
    (scope.unplaced.valueProblems position location expression).map Diagnostic.unplaced =
      (scope.valueProblems position location' expression).map Diagnostic.unplaced := by
  cases expression with
  | builtin builtin => cases builtin <;> rfl
  | user id =>
      simp only [valueProblems, unplaced, TypeGraph.kind?_unplaced, TypeGraph.typeName_unplaced]
      split <;> simp
  | _ => rfl

theorem referenceProblems_unplaced (reference : TypeReference) :
    (scope.unplaced.referenceProblems file reference.unplaced).map Diagnostic.unplaced =
      (scope.referenceProblems file reference).map Diagnostic.unplaced := by
  have elements (element : TypeReference) :
      (scope.unplaced.elementProblems file element.unplaced).map Diagnostic.unplaced =
        (scope.elementProblems file element).map Diagnostic.unplaced := by
    rw [elementProblems, elementProblems, denote_unplaced]
    exact scope.valueProblems_unplaced _ _ _ _
  induction reference with
  | named location name _ => exact scope.nameProblems_unplaced file name .nowhere location
  | list _ element _ induction =>
      simp only [TypeReference.unplaced, referenceProblems, List.map_append, induction, elements]
  | set _ element _ induction =>
      simp only [TypeReference.unplaced, referenceProblems, List.map_append, induction, elements]
  | map _ key value _ induction induction' =>
      simp only [TypeReference.unplaced, referenceProblems, List.map_append, induction, induction',
        elements]

theorem useProblems_unplaced (use : TypeUse × TypeReference) :
    (scope.unplaced.useProblems file (unplacedUse use)).map Diagnostic.unplaced =
      (scope.useProblems file use).map Diagnostic.unplaced := by
  rw [useProblems, useProblems, List.map_append, List.map_append, unplacedUse,
    referenceProblems_unplaced]
  congr 1
  dsimp only
  cases use.1.valuePosition? with
  | none => rfl
  | some position =>
      dsimp only
      rw [denote_unplaced]
      exact scope.valueProblems_unplaced position _ _ _

end Scope

/-! ## Declarations -/

/-- An attempt to declare something, without positions. -/
def Declared.unplaced {δ ι : Type} (change : δ → δ) (declared : Declared δ ι) : Declared δ ι :=
  { declared with
    decl := change declared.decl
    result := declared.result.mapError Diagnostic.unplaced }

/-- What became of the declarations of a file, without positions. -/
def FileDeclarations.unplaced (declarations : FileDeclarations) : FileDeclarations :=
  { declarations with
    typedefs := declarations.typedefs.map (.unplaced TypedefDecl.unplaced)
    enums := declarations.enums.map (.unplaced EnumDecl.unplaced)
    structs := declarations.structs.map (.unplaced StructDecl.unplaced)
    services := declarations.services.map (.unplaced ServiceDecl.unplaced)
    constants := declarations.constants.map (.unplaced ConstantDecl.unplaced) }

namespace Declared

variable {δ ι : Type} (change : δ → δ) (declared : Declared δ ι)

theorem accepted?_unplaced : (declared.unplaced change).accepted? =
    declared.accepted?.map fun (file, decl, id) => (file, change decl, id) := by
  rw [accepted?, accepted?, unplaced]
  cases declared.result <;> rfl

theorem refused?_unplaced : (declared.unplaced change).refused? = declared.refused?.map change := by
  rw [refused?, refused?, unplaced]
  cases declared.result <;> rfl

theorem problem?_unplaced :
    (declared.unplaced change).problem? = declared.problem?.map Diagnostic.unplaced := by
  rw [problem?, problem?, unplaced]
  cases declared.result <;> rfl

end Declared

namespace Names

/-- The names in use without positions. -/
def unplaced (names : Names) : Names :=
  { graph := names.graph.unplaced
    constants := names.constants.map fun (file, decl) => (file, decl.unplaced) }

theorem nameTaken_unplaced (header : Header) (earlier? : Option Location) :
    nameTaken header.unplaced (earlier?.map fun _ => .nowhere) =
      (nameTaken header earlier?).unplaced := by
  cases earlier? <;> rfl

theorem follows_declareType (files : FileTable) (file : FileId) (header : Header)
    (kind : UserTypeKind) :
    Follows unplaced (Except.mapError Diagnostic.unplaced) (declareType files file header kind)
      (declareType files.unplaced file header.unplaced kind) := by
  refine .ofState fun names => ?_
  rw [declareType, declareType]
  by_cases keyword : (Builtin.ofKeyword? header.name).isSome
  · rw [if_pos keyword, if_pos (by exact keyword)]
    rfl
  · rw [if_neg keyword, if_neg (by exact keyword)]
    have declared := (TypeGraph.follows_declare ⟨file, files.qualifier file, header.name⟩ kind
      header.location header.isDeprecated).apply names.graph
    have question : TypeGraph.declare
        ⟨file, files.unplaced.qualifier file, header.unplaced.name⟩ kind header.unplaced.location
          header.unplaced.isDeprecated names.unplaced.graph =
        TypeGraph.declare ⟨file, files.qualifier file, header.name⟩ kind .nowhere
          header.isDeprecated names.graph.unplaced := by
      rw [files.qualifier_unplaced]
      rfl
    dsimp only
    rw [question, declared]
    generalize TypeGraph.declare _ _ _ _ names.graph = result
    obtain ⟨result, graph⟩ := result
    cases result with
    | ok id => rfl
    | error problem =>
        cases problem with
        | duplicateSymbol name existing =>
            have earlier : (names.unplaced.graph.user? existing).map (·.location) =
                ((names.graph.user? existing).map (·.location)).map fun _ => .nowhere := by
              have user : names.unplaced.graph.user? existing =
                  (names.graph.user? existing).map UserType.unplaced :=
                names.graph.user?_unplaced existing
              rw [user, Option.map_map, Option.map_map]
              rfl
            exact Prod.ext (congrArg Except.error
              ((congrArg (nameTaken header.unplaced) earlier).trans (nameTaken_unplaced header _))) rfl
        | unresolvedType name => rfl

theorem follows_declareConstant (file : FileId) (decl : ConstantDecl) :
    Follows unplaced (Except.mapError Diagnostic.unplaced) (declareConstant file decl)
      (declareConstant file decl.unplaced) := by
  refine .ofState fun names => ?_
  have known : names.unplaced.constant? file decl.unplaced.header.name =
      names.constant? file decl.header.name := by
    rw [constant?, constant?, unplaced, List.findIdx?_map]
    rfl
  rw [declareConstant, declareConstant, known]
  cases names.constant? file decl.header.name with
  | some existing =>
      have earlier : names.unplaced.constants[existing]?.map (fun (_, earlier) =>
            earlier.header.location) =
          (names.constants[existing]?.map fun (_, earlier) => earlier.header.location).map
            fun _ => .nowhere := by
        rw [unplaced, List.getElem?_map, Option.map_map, Option.map_map]
        rfl
      exact Prod.ext (congrArg Except.error
        ((congrArg (nameTaken decl.unplaced.header) earlier).trans
          (nameTaken_unplaced decl.header _))) rfl
  | none => simp [unplaced, Except.mapError]

/-- Declarations of one construct are attempted in the same way without positions. -/
theorem follows_attempts {δ ι : Type} (file : FileId) {change : δ → δ}
    {attempt attempt' : δ → StateM Names (Except Diagnostic ι)}
    (each : ∀ decl, Follows unplaced (Except.mapError Diagnostic.unplaced) (attempt decl)
      (attempt' (change decl))) (decls : List δ) :
    Follows unplaced (List.map (Declared.unplaced change))
      (decls.mapM fun decl => do return { file, decl, result := ← attempt decl })
      ((decls.map change).mapM fun decl => do return { file, decl, result := ← attempt' decl }) :=
  .mapM fun decl _ => .bind (each decl) fun _ => .ofPure _

theorem follows_declareTypes {δ : Type} (files : FileTable) (file : FileId) (header : δ → Header)
    (kind : δ → UserTypeKind) (change : δ → δ)
    (same_header : ∀ decl, header (change decl) = (header decl).unplaced)
    (same_kind : ∀ decl, kind (change decl) = kind decl) (decls : List δ) :
    Follows unplaced (List.map (Declared.unplaced change)) (declareTypes files file header kind decls)
      (declareTypes files.unplaced file header kind (decls.map change)) := by
  refine follows_attempts file (fun decl => ?_) decls
  rw [same_header, same_kind]
  exact follows_declareType files file (header decl) (kind decl)

theorem follows_declareFile (files : FileTable) (file : FileId) :
    Follows unplaced FileDeclarations.unplaced (declareFile files file)
      (declareFile files.unplaced file) := by
  refine .ofState fun names => ?_
  have typedefs : declareTypedefs files.unplaced file names.unplaced =
      ((declareTypedefs files file names).1.map (.unplaced TypedefDecl.unplaced),
        (declareTypedefs files file names).2.unplaced) := by
    rw [declareTypedefs, declareTypedefs, files.tree_unplaced]
    exact (follows_declareTypes files file (·.header) (fun _ => .typedef) TypedefDecl.unplaced
      (fun _ => rfl) (fun _ => rfl) _).apply names
  have enums : declareEnums files.unplaced file names.unplaced =
      ((declareEnums files file names).1.map (.unplaced EnumDecl.unplaced),
        (declareEnums files file names).2.unplaced) := by
    rw [declareEnums, declareEnums, typedefs, files.tree_unplaced]
    exact (follows_declareTypes files file (·.header) (fun _ => .enum) EnumDecl.unplaced
      (fun _ => rfl) (fun _ => rfl) _).apply _
  have structs : declareStructs files.unplaced file names.unplaced =
      ((declareStructs files file names).1.map (.unplaced StructDecl.unplaced),
        (declareStructs files file names).2.unplaced) := by
    rw [declareStructs, declareStructs, enums, files.tree_unplaced]
    exact (follows_declareTypes files file (·.header) (fun struct => .struct struct.kind)
      StructDecl.unplaced (fun _ => rfl) (fun _ => rfl) _).apply _
  have services : declareServices files.unplaced file names.unplaced =
      ((declareServices files file names).1.map (.unplaced ServiceDecl.unplaced),
        (declareServices files file names).2.unplaced) := by
    rw [declareServices, declareServices, structs, files.tree_unplaced]
    exact (follows_declareTypes files file (·.header) (fun _ => .service) ServiceDecl.unplaced
      (fun _ => rfl) (fun _ => rfl) _).apply _
  have constants := (follows_attempts file (follows_declareConstant file)
    (files.tree file).constants).apply (declareServices files file names).2
  have written : (files.unplaced.tree file).constants =
      (files.tree file).constants.map ConstantDecl.unplaced := by
    rw [files.tree_unplaced]
    rfl
  rw [declareFile_apply, declareFile_apply, services, structs, enums, typedefs, written,
    declareConstants, constants]
  rfl

theorem follows_declareFiles (files : FileTable) (order : List FileId) :
    Follows unplaced (List.map FileDeclarations.unplaced) (declareFiles files order)
      (declareFiles files.unplaced order) := by
  have each : Follows unplaced (List.map FileDeclarations.unplaced) (order.mapM (declareFile files))
      ((order.map id).mapM (declareFile files.unplaced)) :=
    .mapM fun file _ => follows_declareFile files file
  rwa [List.map_id] at each

end Names

namespace FileDeclarations

variable (declarations : FileDeclarations)

theorem problems_unplaced :
    declarations.unplaced.problems = declarations.problems.map Diagnostic.unplaced := by
  simp only [problems, unplaced, List.map_append, List.filterMap_map, List.map_filterMap,
    Function.comp_def, Declared.problem?_unplaced]

theorem refusedUses_unplaced :
    declarations.unplaced.refusedUses = declarations.refusedUses.map unplacedUse := by
  have each {δ ι : Type} {change : δ → δ} {uses : δ → List (TypeUse × TypeReference)}
      (same : ∀ decl, uses (change decl) = (uses decl).map unplacedUse)
      (attempts : List (Declared δ ι)) :
      ((attempts.map (Declared.unplaced change)).filterMap Declared.refused?).flatMap uses =
        ((attempts.filterMap Declared.refused?).flatMap uses).map unplacedUse := by
    have refused : (attempts.map (Declared.unplaced change)).filterMap Declared.refused? =
        (attempts.filterMap Declared.refused?).map change := by
      rw [List.filterMap_map, List.map_filterMap]
      exact List.filterMap_congr fun attempt _ => attempt.refused?_unplaced change
    rw [refused, List.flatMap_map, List.map_flatMap, funext same]
  simp only [refusedUses, unplaced, List.map_append, each TypedefDecl.uses_unplaced,
    each StructDecl.uses_unplaced, each ServiceDecl.uses_unplaced, each ConstantDecl.uses_unplaced]

end FileDeclarations
end IdlSchema
