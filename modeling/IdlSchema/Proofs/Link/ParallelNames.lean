import IdlSchema.Proofs.Link.Linked
import IdlSchema.Proofs.Tree.Likeness

/-!
# Names that are declared in parallel

Which types are declared depends on the headers of declarations alone.  Where two tables of files
declare types that are alike, the same names are accepted and become the same types.
-/

namespace IdlSchema

/-- Two attempts to declare alike declarations in a file came to the same. -/
structure Declared.Parallel {δ ι : Type} (like : FileId → δ → δ → Prop)
    (attempt attempt' : Declared δ ι) : Prop where
  file : attempt'.file = attempt.file
  decl : like attempt.file attempt.decl attempt'.decl
  result : attempt'.result = attempt.result

/-- Two accepted declarations are alike and are known by the same. -/
structure AcceptedParallel {δ ι : Type} (like : FileId → δ → δ → Prop)
    (accepted accepted' : FileId × δ × ι) : Prop where
  file : accepted'.1 = accepted.1
  decl : like accepted.1 accepted.2.1 accepted'.2.1
  id : accepted'.2.2 = accepted.2.2

theorem forall₂_accepted {δ ι : Type} {like : FileId → δ → δ → Prop}
    {attempts attempts' : List (Declared δ ι)}
    (parallel : List.Forall₂ (Declared.Parallel like) attempts attempts') :
    List.Forall₂ (AcceptedParallel like) (attempts.filterMap (·.accepted?))
      (attempts'.filterMap (·.accepted?)) := by
  induction parallel with
  | nil => exact .nil
  | @cons attempt attempt' _ _ first _ induction =>
      rw [List.filterMap_cons, List.filterMap_cons, Declared.accepted?, Declared.accepted?,
        first.result]
      cases attempt.result with
      | error problem => exact induction
      | ok id => exact .cons ⟨first.file, first.decl, rfl⟩ induction

/-- What became of the types of two files that are alike. -/
structure FileDeclarations.Parallel (related : FileId → TypeReference → TypeReference → Prop)
    (declarations declarations' : FileDeclarations) : Prop where
  typedefs : List.Forall₂ (Declared.Parallel fun file => TypedefDecl.Like (related file))
    declarations.typedefs declarations'.typedefs
  enums : List.Forall₂ (Declared.Parallel fun _ decl decl' => decl' = decl)
    declarations.enums declarations'.enums
  structs : List.Forall₂ (Declared.Parallel fun file => StructDecl.Like (related file))
    declarations.structs declarations'.structs
  services : List.Forall₂ (Declared.Parallel fun file => ServiceDecl.Like (related file))
    declarations.services declarations'.services

namespace Names

variable {files files' : FileTable} {related : FileId → TypeReference → TypeReference → Prop}

/-- Declaring a type depends on its header and on the types that are declared alone. -/
theorem declareType_parallel {file : FileId} (qualifier : files'.qualifier file = files.qualifier file)
    {header header' : Header} (same_header : header' = header) {kind kind' : UserTypeKind}
    (same_kind : kind' = kind) {names names' : Names} (graph : names'.graph = names.graph) :
    (declareType files' file header' kind' names').1 = (declareType files file header kind names).1 ∧
      (declareType files' file header' kind' names').2.graph =
        (declareType files file header kind names).2.graph := by
  subst same_header same_kind
  rw [declareType, declareType, qualifier, graph]
  split
  · exact ⟨rfl, graph⟩
  · dsimp only
    split <;> simp [graph]

theorem declareTypes_parallel {δ : Type} (like : FileId → δ → δ → Prop) (header : δ → Header)
    (kind : δ → UserTypeKind) {file : FileId}
    (qualifier : files'.qualifier file = files.qualifier file)
    (headers : ∀ decl decl', like file decl decl' → header decl' = header decl)
    (kinds : ∀ decl decl', like file decl decl' → kind decl' = kind decl) {decls decls' : List δ}
    (alike : List.Forall₂ (like file) decls decls') {names names' : Names}
    (graph : names'.graph = names.graph) :
    List.Forall₂ (Declared.Parallel like) (declareTypes files file header kind decls names).1
        (declareTypes files' file header kind decls' names').1 ∧
      (declareTypes files' file header kind decls' names').2.graph =
        (declareTypes files file header kind decls names).2.graph := by
  refine forall₂_mapM_both (fun (names names' : Names) => names'.graph = names.graph)
    (fun decl decl' like state state' graph => ?_) alike graph
  have step := declareType_parallel qualifier (headers decl decl' like) (kinds decl decl' like) graph
  exact ⟨⟨rfl, like, step.1⟩, step.2⟩

theorem declareFile_parallel {file : FileId}
    (qualifier : files'.qualifier file = files.qualifier file)
    (alike : (files.tree file).TypesLike (related file) (files'.tree file)) {names names' : Names}
    (graph : names'.graph = names.graph) :
    (declareFile files file names).1.Parallel related (declareFile files' file names').1 ∧
      (declareFile files' file names').2.graph = (declareFile files file names).2.graph := by
  have typedefs := declareTypes_parallel (fun file => TypedefDecl.Like (related file))
    (·.header) (fun _ => .typedef) qualifier (fun _ _ like => like.header) (fun _ _ _ => rfl)
    alike.typedefs graph
  have same_enums : List.Forall₂ (fun decl decl' => decl' = decl) (files.tree file).enums
      (files'.tree file).enums := by
    rw [alike.enums]
    exact List.forall₂_same.mpr fun _ _ => rfl
  have enums := declareTypes_parallel (fun _ decl decl' => decl' = decl)
    (·.header) (fun _ => .enum) qualifier (fun _ _ same => congrArg EnumDecl.header same)
    (fun _ _ _ => rfl) same_enums typedefs.2
  have structs := declareTypes_parallel (fun file => StructDecl.Like (related file))
    (·.header) (fun struct => .struct struct.kind) qualifier (fun _ _ like => like.header)
    (fun _ _ like => congrArg UserTypeKind.struct like.kind) alike.structs enums.2
  have services := declareTypes_parallel (fun file => ServiceDecl.Like (related file))
    (·.header) (fun _ => .service) qualifier (fun _ _ like => like.header) (fun _ _ _ => rfl)
    alike.services structs.2
  rw [declareFile_apply, declareFile_apply]
  refine ⟨⟨typedefs.1, enums.1, structs.1, services.1⟩, ?_⟩
  dsimp only
  rw [graph_declareConstants, graph_declareConstants]
  exact services.2

theorem declareFiles_parallel {order : List FileId}
    (qualifier : ∀ file, files'.qualifier file = files.qualifier file)
    (alike : ∀ file ∈ order, (files.tree file).TypesLike (related file) (files'.tree file))
    {names names' : Names} (graph : names'.graph = names.graph) :
    List.Forall₂ (FileDeclarations.Parallel related) (declareFiles files order names).1
        (declareFiles files' order names').1 ∧
      (declareFiles files' order names').2.graph = (declareFiles files order names).2.graph := by
  have orders : List.Forall₂ (fun file file' => file' = file ∧ file ∈ order) order order :=
    List.forall₂_same.mpr fun file member => ⟨rfl, member⟩
  refine forall₂_mapM_both (fun (names names' : Names) => names'.graph = names.graph)
    (fun file file' same state state' graph => ?_) orders graph
  obtain ⟨rfl, member⟩ := same
  exact declareFile_parallel (qualifier file') (alike file' member) graph

/-! ## Constants -/

/-- The constants that are known have the same headers. -/
def SameConstants (names names' : Names) : Prop :=
  names'.constants.map (fun entry => (entry.1, entry.2.header)) =
    names.constants.map fun entry => (entry.1, entry.2.header)

/-- Declaring a constant depends on its header and on those of other constants alone. -/
theorem declareConstant_parallel (file : FileId) {decl decl' : ConstantDecl}
    (header : decl'.header = decl.header) {names names' : Names}
    (same : names.SameConstants names') :
    (declareConstant file decl' names').1 = (declareConstant file decl names).1 ∧
      (declareConstant file decl names).2.SameConstants (declareConstant file decl' names').2 := by
  have place (names : Names) (name : String) : names.constant? file name =
      (names.constants.map fun entry => (entry.1, entry.2.header)).findIdx? fun entry =>
        entry.1 == file && entry.2.name == name := by
    rw [List.findIdx?_map]
    rfl
  have length : names'.constants.length = names.constants.length := by
    simpa using congrArg List.length same
  have earlier (existing : Nat) :
      names'.constants[existing]?.map (fun entry => entry.2.header.location) =
        names.constants[existing]?.map fun entry => entry.2.header.location := by
    have at_place := congrArg (fun list => list[existing]?.map fun entry => entry.2.location) same
    simpa only [List.getElem?_map, Option.map_map, Function.comp_def] using at_place
  rw [declareConstant, declareConstant, place names, place names', header, same]
  cases List.findIdx? _ _ with
  | some existing => exact ⟨by simp only [earlier], same⟩
  | none =>
      refine ⟨by rw [length], ?_⟩
      rw [SameConstants, List.map_append, List.map_append, same, List.map_singleton,
        List.map_singleton, header]

theorem declareConstants_parallel {file : FileId} {decls decls' : List ConstantDecl}
    (alike : List.Forall₂ (ConstantDecl.Like (related file)) decls decls') {names names' : Names}
    (same : names.SameConstants names') :
    List.Forall₂ (Declared.Parallel fun file => ConstantDecl.Like (related file))
        (declareConstants file decls names).1 (declareConstants file decls' names').1 ∧
      (declareConstants file decls names).2.SameConstants
        (declareConstants file decls' names').2 := by
  refine forall₂_mapM_both SameConstants (fun decl decl' like state state' same => ?_) alike same
  have step := declareConstant_parallel file like.header same
  exact ⟨⟨rfl, like, step.1⟩, step.2⟩

theorem declareFiles_constants {order : List FileId}
    (alike : ∀ file ∈ order, List.Forall₂ (ConstantDecl.Like (related file))
      (files.tree file).constants (files'.tree file).constants) {names names' : Names}
    (same : names.SameConstants names') :
    List.Forall₂ (fun declarations declarations' : FileDeclarations =>
        List.Forall₂ (Declared.Parallel fun file => ConstantDecl.Like (related file))
          declarations.constants declarations'.constants)
      (declareFiles files order names).1 (declareFiles files' order names').1 := by
  have orders : List.Forall₂ (fun file file' => file' = file ∧ file ∈ order) order order :=
    List.forall₂_same.mpr fun file member => ⟨rfl, member⟩
  refine (forall₂_mapM_both SameConstants (fun file file' same_file state state' same => ?_)
    orders same).1
  obtain ⟨rfl, member⟩ := same_file
  have types : (declareServices files file' state).2.SameConstants
      (declareServices files' file' state').2 := by
    rw [SameConstants, constants_declareServices, constants_declareServices]
    exact same
  rw [declareFile_apply, declareFile_apply]
  exact declareConstants_parallel (alike file' member) types

end Names

theorem filterMap_problem?_eq {δ ι : Type} {like : FileId → δ → δ → Prop}
    {attempts attempts' : List (Declared δ ι)}
    (parallel : List.Forall₂ (Declared.Parallel like) attempts attempts') :
    attempts'.filterMap (·.problem?) = attempts.filterMap (·.problem?) := by
  induction parallel with
  | nil => rfl
  | cons first _ induction =>
      rw [List.filterMap_cons, List.filterMap_cons, Declared.problem?, Declared.problem?,
        first.result, induction]

/-- Declarations of files that are alike are refused for the same reasons. -/
theorem FileDeclarations.Parallel.problems_eq
    {related related' : FileId → TypeReference → TypeReference → Prop}
    {declarations declarations' : FileDeclarations}
    (parallel : declarations.Parallel related declarations')
    (constants : List.Forall₂ (Declared.Parallel fun file => ConstantDecl.Like (related' file))
      declarations.constants declarations'.constants) :
    declarations'.problems = declarations.problems := by
  rw [problems, problems, filterMap_problem?_eq parallel.typedefs,
    filterMap_problem?_eq parallel.enums, filterMap_problem?_eq parallel.structs,
    filterMap_problem?_eq parallel.services, filterMap_problem?_eq constants]

end IdlSchema
