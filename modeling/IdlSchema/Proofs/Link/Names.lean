import IdlSchema.Link.Declarations
import IdlSchema.Proofs.Diagnostics
import IdlSchema.Proofs.StateRuns
import IdlSchema.Proofs.Types.Growth

/-!
# What becomes of declared names

Each declaration of a file is attempted once, in order.  The accepted ones become the declared
types of the graph, and nothing else does.  What is refused is reported as an error, so without
errors everything that is written is accepted.
-/

namespace IdlSchema

namespace FileTable

/-- What is written in the file at a place. -/
def tree (files : FileTable) (file : FileId) : FileTree :=
  ((files.get? file).map (·.tree)).getD default

end FileTable

namespace UserType

/-- The declared type that an accepted declaration becomes. -/
def declared (files : FileTable) (file : FileId) (header : Header) (kind : UserTypeKind)
    (id : TypeId) : UserType :=
  { name := { file, qualifier := files.qualifier file, name := header.name }
    kind
    location := header.location
    deprecated := header.isDeprecated
    id
    target? := none
    resolved := false }

end UserType

namespace Declared

variable {δ ι : Type}

/-- Some attempts are those to declare, in order, what is written in a file. -/
def Records (file : FileId) (decls : List δ) (attempts : List (Declared δ ι)) : Prop :=
  List.Forall₂ (fun decl attempt => attempt.file = file ∧ attempt.decl = decl ∧
    ∀ problem, attempt.result = .error problem → problem.kind = .duplicateSymbol) decls attempts

/-- Without errors, all that is written is accepted, in order. -/
theorem Records.accepted {file : FileId} {decls : List δ} {attempts : List (Declared δ ι)}
    (records : Records file decls attempts)
    (no_error : ∀ problem ∈ attempts.filterMap (·.problem?), problem.isError = false) :
    (attempts.filterMap (·.accepted?)).map (fun accepted => (accepted.1, accepted.2.1)) =
      decls.map (file, ·) := by
  induction records with
  | nil => rfl
  | @cons decl attempt decls attempts recorded _ induction =>
      obtain ⟨same_file, same_decl, kind⟩ := recorded
      cases result : attempt.result with
      | error problem =>
          have clear := no_error problem (by simp [problem?, result])
          rw [Diagnostic.isError_of_kind (kind problem result) rfl] at clear
          cases clear
      | ok id =>
          have accepted : attempt.accepted? = some (attempt.file, attempt.decl, id) := by
            simp [accepted?, result]
          rw [List.filterMap_cons_some accepted, List.map_cons, List.map_cons, same_file, same_decl,
            induction fun problem member => no_error problem (by simpa [problem?, result] using member)]

theorem Records.of_mem {file : FileId} {decls : List δ} {attempts : List (Declared δ ι)}
    (records : Records file decls attempts) {accepted : FileId × δ × ι}
    (member : accepted ∈ attempts.filterMap (·.accepted?)) :
    accepted.1 = file ∧ accepted.2.1 ∈ decls := by
  obtain ⟨attempt, attempt_mem, same⟩ := List.mem_filterMap.mp member
  obtain ⟨index, inside, rfl⟩ := List.getElem_of_mem attempt_mem
  have inside' : index < decls.length := records.length_eq ▸ inside
  obtain ⟨same_file, same_decl, _⟩ := records.get inside' inside
  rw [List.get_eq_getElem, List.get_eq_getElem] at same_decl
  rw [List.get_eq_getElem] at same_file
  rw [accepted?] at same
  split at same
  · cases same
    exact ⟨same_file, same_decl ▸ List.getElem_mem inside'⟩
  · cases same

/-- The declared types that accepted declarations become. -/
def users (files : FileTable) (header : δ → Header) (kind : δ → UserTypeKind)
    (attempts : List (Declared δ TypeId)) : List UserType :=
  (attempts.filterMap (·.accepted?)).map fun (file, decl, id) =>
    .declared files file (header decl) (kind decl) id

end Declared

namespace FileDeclarations

/-- What became of the declarations of a file with a given tree. -/
structure Records (declarations : FileDeclarations) (file : FileId) (tree : FileTree) : Prop where
  same_file : declarations.file = file
  typedefs : Declared.Records file tree.typedefs declarations.typedefs
  enums : Declared.Records file tree.enums declarations.enums
  structs : Declared.Records file tree.structs declarations.structs
  services : Declared.Records file tree.services declarations.services
  constants : Declared.Records file tree.constants declarations.constants

/-- The declared types of a file, in order. -/
def users (files : FileTable) (declarations : FileDeclarations) : List UserType :=
  Declared.users files (·.header) (fun _ => .typedef) declarations.typedefs ++
    (Declared.users files (·.header) (fun _ => .enum) declarations.enums ++
      (Declared.users files (·.header) (fun struct => .struct struct.kind) declarations.structs ++
        Declared.users files (·.header) (fun _ => .service) declarations.services))

end FileDeclarations

namespace Names

/-- Declaring has added some declared types to the names. -/
structure Adds (before : Names) (users : List UserType) (after : Names) : Prop where
  wellFormed : after.graph.WellFormed
  extension : before.graph.Extends after.graph
  users : after.graph.users = before.graph.users ++ users

namespace Adds

theorem none {names : Names} (wellFormed : names.graph.WellFormed) : names.Adds [] names :=
  ⟨wellFormed, .refl _, (List.append_nil _).symm⟩

theorem trans {a b c : Names} {users users' : List UserType} (first : a.Adds users b)
    (second : b.Adds users' c) : a.Adds (users ++ users') c where
  wellFormed := second.wellFormed
  extension := first.extension.trans second.extension
  users := by rw [second.users, first.users, List.append_assoc]

end Adds

theorem kind_nameTaken (header : Header) (earlier? : Option Location) :
    (nameTaken header earlier?).kind = .duplicateSymbol := by
  cases earlier? <;> rfl

theorem kind_of_declareType {files : FileTable} {file : FileId} {header : Header}
    {kind : UserTypeKind} {names : Names} {problem : Diagnostic}
    (refused : (declareType files file header kind names).1 = .error problem) :
    problem.kind = .duplicateSymbol := by
  rw [declareType] at refused
  split at refused
  · cases refused
    rfl
  · dsimp only at refused
    split at refused
    · cases refused
    · cases refused
      exact kind_nameTaken header _
    · cases refused
      exact kind_nameTaken header _

/--
A type is refused and changes nothing, where its name is a keyword or that of another type of the
file, or else it is declared.
-/
theorem declareType_cases {names : Names} (wellFormed : names.graph.WellFormed)
    (files : FileTable) (file : FileId) (header : Header) (kind : UserTypeKind) :
    (∃ problem, declareType files file header kind names = (.error problem, names) ∧
      (problem = keywordTaken header ∧ (Builtin.ofKeyword? header.name).isSome ∨
        (∃ earlier?, problem = nameTaken header earlier?) ∧
          (names.graph.lookup file header.name).isSome)) ∨
    ∃ id after, declareType files file header kind names = (.ok id, after) ∧
      Builtin.ofKeyword? header.name = none ∧ names.graph.lookup file header.name = none ∧
      names.Adds [.declared files file header kind id] after ∧
      after.constants = names.constants := by
  rw [declareType]
  split
  · rename_i keyword
    exact .inl ⟨_, rfl, .inl ⟨rfl, keyword⟩⟩
  · rename_i no_keyword
    rw [Bool.not_eq_true, Option.isSome_eq_false_iff, Option.isNone_iff_eq_none] at no_keyword
    dsimp only
    rcases TypeGraph.declare_cases wellFormed ⟨file, files.qualifier file, header.name⟩ kind
      header.location header.isDeprecated with ⟨existing, found, taken⟩ | ⟨unused, declared⟩
    · rw [taken]
      exact .inl ⟨_, rfl, .inr ⟨⟨_, rfl⟩, Option.isSome_of_eq_some found⟩⟩
    · rw [declared]
      exact .inr ⟨_, _, rfl, no_keyword, unused,
        ⟨wellFormed.declared_type rfl, ⟨_, rfl⟩, rfl⟩, rfl⟩

/-- Types are declared in order, each behind those in front of it. -/
theorem declareTypes_cons {δ : Type} (files : FileTable) (file : FileId) (header : δ → Header)
    (kind : δ → UserTypeKind) (decl : δ) (decls : List δ) (names : Names) :
    declareTypes files file header kind (decl :: decls) names =
      (⟨file, decl, (declareType files file (header decl) (kind decl) names).1⟩ ::
          (declareTypes files file header kind decls
            (declareType files file (header decl) (kind decl) names).2).1,
        (declareTypes files file header kind decls
          (declareType files file (header decl) (kind decl) names).2).2) :=
  mapM_cons_apply _ decl decls names

theorem adds_declareTypes {δ : Type} (files : FileTable) (file : FileId) (header : δ → Header)
    (kind : δ → UserTypeKind) (decls : List δ) {names : Names}
    (wellFormed : names.graph.WellFormed) :
    names.Adds
      (Declared.users files header kind (declareTypes files file header kind decls names).1)
      (declareTypes files file header kind decls names).2 := by
  induction decls generalizing names with
  | nil => exact .none wellFormed
  | cons decl decls induction =>
      rw [declareTypes_cons]
      rcases declareType_cases wellFormed files file (header decl) (kind decl) with
        ⟨problem, refused, _⟩ | ⟨id, after, declared, _, _, adds, _⟩
      · rw [refused]
        exact induction wellFormed
      · rw [declared]
        exact adds.trans (induction adds.wellFormed)

theorem records_declareTypes {δ : Type} (files : FileTable) (file : FileId) (header : δ → Header)
    (kind : δ → UserTypeKind) (decls : List δ) (names : Names) :
    Declared.Records file decls (declareTypes files file header kind decls names).1 :=
  forall₂_mapM (fun _ _ _ => ⟨rfl, rfl, fun _ => kind_of_declareType⟩) names

theorem constants_declareTypes {δ : Type} (files : FileTable) (file : FileId) (header : δ → Header)
    (kind : δ → UserTypeKind) (decls : List δ) (names : Names) :
    (declareTypes files file header kind decls names).2.constants = names.constants := by
  induction decls generalizing names with
  | nil => rfl
  | cons decl decls induction =>
      have step : (declareType files file (header decl) (kind decl) names).2.constants =
          names.constants := by
        rw [declareType]
        split
        · rfl
        · dsimp only
          split <;> rfl
      rw [declareTypes_cons]
      exact (induction _).trans step

theorem kind_of_declareConstant {file : FileId} {decl : ConstantDecl} {names : Names}
    {problem : Diagnostic} (refused : (declareConstant file decl names).1 = .error problem) :
    problem.kind = .duplicateSymbol := by
  rw [declareConstant] at refused
  split at refused
  · cases refused
    exact kind_nameTaken decl.header _
  · cases refused

theorem graph_declareConstant (file : FileId) (decl : ConstantDecl) (names : Names) :
    (declareConstant file decl names).2.graph = names.graph := by
  rw [declareConstant]
  split <;> rfl

/-- Declares the constants of a file. -/
def declareConstants (file : FileId) (decls : List ConstantDecl) :
    StateM Names (List (Declared ConstantDecl ConstantId)) :=
  decls.mapM fun decl => do
    return { file, decl, result := ← declareConstant file decl }

/-- Constants are declared in order, each behind those in front of it. -/
theorem declareConstants_cons (file : FileId) (decl : ConstantDecl) (decls : List ConstantDecl)
    (names : Names) :
    declareConstants file (decl :: decls) names =
      (⟨file, decl, (declareConstant file decl names).1⟩ ::
          (declareConstants file decls (declareConstant file decl names).2).1,
        (declareConstants file decls (declareConstant file decl names).2).2) :=
  mapM_cons_apply _ decl decls names

theorem graph_declareConstants (file : FileId) (decls : List ConstantDecl) (names : Names) :
    (declareConstants file decls names).2.graph = names.graph := by
  induction decls generalizing names with
  | nil => rfl
  | cons decl decls induction =>
      rw [declareConstants_cons]
      exact (induction _).trans (graph_declareConstant file decl names)

theorem records_declareConstants (file : FileId) (decls : List ConstantDecl) (names : Names) :
    Declared.Records file decls (declareConstants file decls names).1 :=
  forall₂_mapM (fun _ _ _ => ⟨rfl, rfl, fun _ => kind_of_declareConstant⟩) names

section

variable (files : FileTable) (file : FileId) (names : Names)

/-- The typedefs of a file are declared first. -/
def declareTypedefs : List (Declared TypedefDecl TypeId) × Names :=
  declareTypes files file (·.header) (fun _ => .typedef) (files.tree file).typedefs names

/-- The enums of a file are declared behind its typedefs. -/
def declareEnums : List (Declared EnumDecl TypeId) × Names :=
  declareTypes files file (·.header) (fun _ => .enum) (files.tree file).enums
    (declareTypedefs files file names).2

/-- The structs of a file are declared behind its enums. -/
def declareStructs : List (Declared StructDecl TypeId) × Names :=
  declareTypes files file (·.header) (fun struct => .struct struct.kind) (files.tree file).structs
    (declareEnums files file names).2

/-- The services of a file are declared behind its structs. -/
def declareServices : List (Declared ServiceDecl TypeId) × Names :=
  declareTypes files file (·.header) (fun _ => .service) (files.tree file).services
    (declareStructs files file names).2

theorem constants_declareServices :
    (declareServices files file names).2.constants = names.constants := by
  rw [declareServices, constants_declareTypes, declareStructs, constants_declareTypes,
    declareEnums, constants_declareTypes, declareTypedefs, constants_declareTypes]

theorem declareFile_apply : declareFile files file names =
    ({ file
       typedefs := (declareTypedefs files file names).1
       enums := (declareEnums files file names).1
       structs := (declareStructs files file names).1
       services := (declareServices files file names).1
       constants := (declareConstants file (files.tree file).constants
         (declareServices files file names).2).1 },
      (declareConstants file (files.tree file).constants (declareServices files file names).2).2) :=
  rfl

end

section

variable (files : FileTable) (file : FileId) {names : Names} (wellFormed : names.graph.WellFormed)

include wellFormed

theorem adds_declareTypedefs : names.Adds
    (Declared.users files (·.header) (fun _ => .typedef) (declareTypedefs files file names).1)
    (declareTypedefs files file names).2 :=
  adds_declareTypes files file _ _ _ wellFormed

theorem adds_declareEnums : (declareTypedefs files file names).2.Adds
    (Declared.users files (·.header) (fun _ => .enum) (declareEnums files file names).1)
    (declareEnums files file names).2 :=
  adds_declareTypes files file _ _ _ (adds_declareTypedefs files file wellFormed).wellFormed

theorem adds_declareStructs : (declareEnums files file names).2.Adds
    (Declared.users files (·.header) (fun struct => .struct struct.kind)
      (declareStructs files file names).1)
    (declareStructs files file names).2 :=
  adds_declareTypes files file _ _ _ (adds_declareEnums files file wellFormed).wellFormed

theorem adds_declareServices : (declareStructs files file names).2.Adds
    (Declared.users files (·.header) (fun _ => .service) (declareServices files file names).1)
    (declareServices files file names).2 :=
  adds_declareTypes files file _ _ _ (adds_declareStructs files file wellFormed).wellFormed

end

theorem records_declareFile (files : FileTable) (file : FileId) (names : Names) :
    (declareFile files file names).1.Records file (files.tree file) := by
  rw [declareFile_apply]
  exact
    { same_file := rfl
      typedefs := records_declareTypes files file _ _ (files.tree file).typedefs _
      enums := records_declareTypes files file _ _ (files.tree file).enums _
      structs := records_declareTypes files file _ _ (files.tree file).structs _
      services := records_declareTypes files file _ _ (files.tree file).services _
      constants := records_declareConstants file (files.tree file).constants _ }

theorem adds_declareFile (files : FileTable) (file : FileId) {names : Names}
    (wellFormed : names.graph.WellFormed) :
    names.Adds ((declareFile files file names).1.users files) (declareFile files file names).2 := by
  have types := (adds_declareTypedefs files file wellFormed).trans
    ((adds_declareEnums files file wellFormed).trans
      ((adds_declareStructs files file wellFormed).trans
        (adds_declareServices files file wellFormed)))
  have same := graph_declareConstants file (files.tree file).constants
    (declareServices files file names).2
  rw [declareFile_apply]
  exact ⟨same ▸ types.wellFormed, same ▸ types.extension, same ▸ types.users⟩

/-- Every file in the order has its declarations attempted. -/
theorem records_declareFiles (files : FileTable) (order : List FileId) (names : Names) :
    List.Forall₂ (fun file declarations => declarations.Records file (files.tree file)) order
      (declareFiles files order names).1 :=
  forall₂_mapM (fun file _ state => records_declareFile files file state) names

/-- The declared types are what the accepted declarations become. -/
theorem adds_declareFiles (files : FileTable) (order : List FileId) {names : Names}
    (wellFormed : names.graph.WellFormed) :
    names.Adds ((declareFiles files order names).1.flatMap (·.users files))
      (declareFiles files order names).2 := by
  induction order generalizing names with
  | nil => exact .none wellFormed
  | cons file order induction =>
      rw [declareFiles, mapM_cons_apply, List.flatMap_cons]
      have first := adds_declareFile files file wellFormed
      exact first.trans (induction first.wellFormed)

end Names
end IdlSchema
