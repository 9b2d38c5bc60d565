import Mathlib
import IdlSchema.Proofs.Files.IncludeClosure
import IdlSchema.Proofs.Files.LoadedFiles
import IdlSchema.Proofs.Link.DeprecatedUses
import IdlSchema.Proofs.Schema.FullyLinked

/-!
# Roots that are kept

Of some roots with the same path the first one stays in the table of files, and what is found for an
include never takes its place.  In a schema that is built, its declarations are all there, in order,
and they say what is written.
-/

namespace IdlSchema

open Diagnostics FileDeclarations

/-! ## What it means to be kept -/

namespace Schema

/-- What names stand for in a schema. -/
def scope (schema : Schema) : Scope :=
  { files := schema.files, graph := schema.graph, warnDeprecated := true }

/-- The value of a literal in a file of a schema at a type. -/
def literalValue (schema : Schema) : FileId → TypeId → Literal → Option ConstantValue :=
  schema.files.literalValue schema.files.dependencyOrder true

/--
The declarations of a file in a schema are those of a tree, in order.  Nothing is left out of them,
and they say what is written.
-/
structure Keeps (schema : Schema) (file : FileId) (tree : FileTree) : Prop where
  typedefs : List.Forall₂ schema.scope.MirrorsTypedef (tree.typedefs.map (file, ·))
    (schema.model.typedefs.filter (·.file == file))
  enums : List.Forall₂
    (fun written enum => KeepsEnum written enum ∧ schema.scope.MirrorsEnum written enum)
    (tree.enums.map (file, ·)) (schema.model.enums.filter (·.file == file))
  structs : List.Forall₂
    (fun written struct => KeepsStruct written struct ∧
      schema.scope.MirrorsStruct schema.literalValue written struct)
    (tree.structs.map (file, ·)) (schema.model.structs.filter (·.file == file))
  services : List.Forall₂
    (fun written service => KeepsService written service ∧
      schema.scope.MirrorsService schema.literalValue written service)
    (tree.services.map (file, ·)) (schema.model.services.filter (·.file == file))
  constants : List.Forall₂
    (fun written constant => KeepsConstant written constant ∧
      schema.scope.MirrorsConstant schema.literalValue written (some constant))
    (tree.constants.map (file, ·)) (schema.model.constants.filter (·.file == file))

/-- A root is a file of a schema, which has all its declarations as they are written. -/
def KeepsRoot (schema : Schema) (root : FileTree) : Prop :=
  ∃ file entry, schema.files.get? file = some entry ∧ entry.path = root.path ∧ entry.tree = root ∧
    schema.Keeps file root

end Schema

/-! ## Declarations of one file -/

namespace FileTable

variable {files : FileTable} {order : List FileId} {file : FileId} {δ β : Type}
  {decls : FileTree → List δ}

/-- Of what is written in files that are listed once, a file has its own part. -/
theorem filter_written (once : order.Nodup) (listed : file ∈ order) :
    (files.written order decls).filter (·.1 == file) = (decls (files.tree file)).map (file, ·) := by
  have own (other : FileId) : ((decls (files.tree other)).map (other, ·)).filter (·.1 == file) =
      if other = file then (decls (files.tree other)).map (other, ·) else [] := by
    split
    · rename_i same
      exact List.filter_eq_self.mpr (List.forall_mem_map.mpr fun _ _ => beq_iff_eq.mpr same)
    · rename_i differ
      refine List.filter_eq_nil_iff.mpr (List.forall_mem_map.mpr fun _ _ => ?_)
      exact fun same => differ (beq_iff_eq.mp same)
  rw [written, List.filter_flatMap, List.flatMap_congr fun other _ => own other]
  induction order with
  | nil => cases listed
  | cons first others induction =>
      obtain ⟨fresh, once⟩ := List.nodup_cons.mp once
      rw [List.flatMap_cons]
      rcases List.mem_cons.mp listed with rfl | later
      · rw [if_pos rfl, List.flatMap_eq_nil_iff.mpr, List.append_nil]
        intro other member
        exact if_neg fun same : other = file => fresh (same ▸ member)
      · rw [if_neg fun same : first = file => fresh (same ▸ later), List.nil_append,
          induction once later]

/-- What is true of the declarations of all files is true of those of one file. -/
theorem forall₂_of_file {related : FileId × δ → β → Prop} {results : List β} {place : β → FileId}
    (all : List.Forall₂ related (files.written order decls) results)
    (placed : ∀ written result, related written result → place result = written.1)
    (once : order.Nodup) (listed : file ∈ order) :
    List.Forall₂ related ((decls (files.tree file)).map (file, ·))
      (results.filter (place · == file)) := by
  rw [← filter_written once listed]
  refine List.rel_filter (fun written result holds => ?_) all
  dsimp only
  rw [placed written result holds]

end FileTable

namespace FileTable.LinksClearly

variable {files : FileTable} {order : List FileId} {warnDeprecated : Bool}

/-- Without errors, all names are new. -/
theorem written_kept {δ ι : Type} {header : δ → Header} {kept decls : FileTree → List δ}
    {attempts : FileDeclarations → List (Declared δ ι)} {all : List FileDeclarations}
    (firsts : List.Forall₂ (fun file declarations => ∃ repeated, Declared.TakesFirsts file header
      (kept (files.tree file)) repeated (attempts declarations)) order all)
    (records : List.Forall₂ (fun file declarations =>
      Declared.Records file (decls (files.tree file)) (attempts declarations)) order all)
    (clear : ∀ declarations ∈ all, Clear ((attempts declarations).filterMap (·.problem?))) :
    files.written order kept = files.written order decls :=
  (accepted_eq_kept firsts).symm.trans (accepted_eq_written records clear)

/-- A file whose declarations were linked without errors is kept. -/
theorem keeps (clearly : files.LinksClearly files.dependencyOrder true) {schema : Schema}
    (same_files : schema.files = files)
    (same_graph : schema.graph = (files.link files.dependencyOrder true).graph)
    (same_model : schema.model = (files.link files.dependencyOrder true).model) {file : FileId}
    (listed : file ∈ files.dependencyOrder) : schema.Keeps file (files.tree file) := by
  have scope : schema.scope = files.linkedScope files.dependencyOrder true := by
    rw [Schema.scope, FileTable.linkedScope, same_files, same_graph]
  have value : schema.literalValue = files.literalValue files.dependencyOrder true := by
    rw [Schema.literalValue, same_files]
  have once := files.nodup_dependencyOrder
  have firsts := files.takesFirsts_declared once
  have records := files.records_declared files.dependencyOrder
  have clear {declarations : FileDeclarations}
      (member : declarations ∈ (files.declared files.dependencyOrder).1) :=
    clearly.declarations_clear member
  have kept : KeepsModel files files.dependencyOrder
      (files.link files.dependencyOrder true).model := by
    have model : (files.link files.dependencyOrder true).model =
        (files.checked files.dependencyOrder true).1 := by
      rw [FileTable.link_eq]
    rw [model]
    exact clearly.keepsModel
  constructor <;> rw [same_model]
  case typedefs =>
    have all := files.mirrorsTypedefs true once
    rw [written_kept (firsts.imp fun _ _ taken => taken.typedefs)
      (records.imp fun _ _ recorded => recorded.typedefs) fun _ member => (clear member).1] at all
    rw [scope]
    exact FileTable.forall₂_of_file all (fun _ _ mirrors => mirrors.file) once listed
  case enums =>
    have all := files.mirrorsEnums true once
    rw [written_kept (firsts.imp fun _ _ taken => taken.enums)
      (records.imp fun _ _ recorded => recorded.enums) fun _ member => (clear member).2.1] at all
    rw [scope]
    exact FileTable.forall₂_of_file (kept.enums.and all) (fun _ _ both => both.1.file) once listed
  case structs =>
    have all := files.mirrorsStructs true once
    rw [written_kept (firsts.imp fun _ _ taken => taken.structs)
      (records.imp fun _ _ recorded => recorded.structs) fun _ member =>
        (clear member).2.2.1] at all
    rw [scope, value]
    exact FileTable.forall₂_of_file (kept.structs.and all) (fun _ _ both => both.1.file) once listed
  case services =>
    have all := files.mirrorsServices true once
    rw [written_kept (firsts.imp fun _ _ taken => taken.services)
      (records.imp fun _ _ recorded => recorded.services) fun _ member =>
        (clear member).2.2.2.1] at all
    rw [scope, value]
    exact FileTable.forall₂_of_file (kept.services.and all) (fun _ _ both => both.1.file) once
      listed
  case constants =>
    obtain ⟨constants, all, same⟩ := files.mirrorsConstants true once
    rw [written_kept (firsts.imp fun _ _ taken => taken.constants)
      (records.imp fun _ _ recorded => recorded.constants) fun _ member =>
        (clear member).2.2.2.2] at all
    -- As many constants are kept as are written, so none is left out for want of a value.
    have valued : ∀ constant? ∈ constants, constant?.isSome := by
      refine List.reduceOption_length_eq_iff.mp ?_
      rw [List.reduceOption, ← same, ← kept.constants.length_eq, all.length_eq]
    have somes : constants = (files.link files.dependencyOrder true).model.constants.map some := by
      rw [same, List.map_filterMap]
      refine (List.filterMap_some.symm.trans (List.filterMap_congr fun constant? member => ?_))
      obtain ⟨constant, rfl⟩ := Option.isSome_iff_exists.mp (valued constant? member)
      rfl
    rw [somes, List.forall₂_map_right_iff] at all
    rw [scope, value]
    exact FileTable.forall₂_of_file (kept.constants.and all) (fun _ _ both => both.1.file) once
      listed

end FileTable.LinksClearly

/-! ## Builds -/

/-- In a schema that is built, the declarations of all files are kept. -/
theorem Build.keeps_of_finish {files : FileTable} {found : Diagnostics}
    {warnDeprecated strict : Bool} {schema : Schema}
    (succeeds : (ofFiles files found warnDeprecated).finish strict = .ok schema) :
    schema.files = files ∧ ∀ file ∈ files.ids, schema.Keeps file (files.tree file) := by
  simp only [ofFiles] at succeeds
  obtain ⟨clear, rfl⟩ := clear_of_finish succeeds
  rw [clear_append, clear_append] at clear
  have reported : Clear (files.link files.dependencyOrder true).reported := by
    cases warnDeprecated with
    | true => exact clear.1.2
    | false =>
        rw [files.reported_link_quiet, clear_exceptKind (by decide)] at clear
        exact clear.1.2
  refine ⟨rfl, fun file member => ?_⟩
  refine (FileTable.linksClearly_of_clear reported).keeps rfl ?_ ?_
    (files.dependencyOrder_perm.mem_iff.mpr member) <;> dsimp only
  · exact files.graph_link_eq _ warnDeprecated
  · exact files.model_link_eq _ warnDeprecated

/-! ## Roots -/

namespace IncludeWalk

/-- The first root with a path that is new gets a place in the table. -/
theorem exists_file_addRoots {roots : List FileTree} {table : FileTable} {path : String}
    {root : FileTree} (first : roots.find? (·.path == path) = some root)
    (unused : path ∉ table.paths) :
    ∃ id file, (addRoots roots table).2.get? id = some file ∧ file.path = path ∧
      file.tree = root := by
  induction roots generalizing table with
  | nil => cases first
  | cons head roots induction =>
      have walked : addRoots (head :: roots) table = _ :=
        mapM_cons_apply _ head roots table
      rw [walked]
      dsimp only
      rw [List.find?_cons] at first
      by_cases same : head.path = path
      · rw [beq_iff_eq.mpr same] at first
        obtain rfl := Option.some.inj first
        rcases table.add_cases head.path head with ⟨id, found, _⟩ | ⟨_, added⟩
        · exact absurd (FileTable.lookup_eq_none_iff.mpr unused) (by rw [← same, found]; simp)
        · have grows := (rootsAdded_addRoots roots (FileTable.add head.path head table).2).grows
          rw [added] at grows ⊢
          obtain ⟨file, found, at_path, at_tree, _⟩ := grows _ _ (table.get?_append _)
          exact ⟨_, file, found, at_path.trans same, at_tree⟩
      · rw [beq_eq_false_iff_ne.mpr same] at first
        refine induction first fun used => ?_
        rcases table.add_cases head.path head with ⟨_, _, kept⟩ | ⟨_, added⟩
        · exact unused (by rwa [kept] at used)
        · rw [added, FileTable.paths, List.map_append, List.mem_append] at used
          rcases used with old | new
          · exact unused old
          · exact same (List.mem_singleton.mp new).symm

end IncludeWalk

namespace Schema

variable {m : Type → Type} [Monad m] [LawfulMonad m]

/--
Whatever the resolver finds, a schema that is built has all declarations of each root that is the
first one with its path.  No file with the path has another tree, so later roots with it are ignored.
-/
theorem keepsRoots_of_build (resolver : IncludeResolver m) (config : SchemaConfig)
    (roots : List FileTree) :
    SatisfiesM (fun result => ∀ schema : Schema, result = .ok schema →
        ∀ path root, roots.find? (·.path == path) = some root → schema.KeepsRoot root ∧
          ∀ file entry, schema.files.get? file = some entry → entry.path = path → entry.tree = root)
      (build resolver config roots) := by
  rw [build]
  refine (FileTable.satisfiesM_load resolver config.maxIncludeDepth.toNat roots).bind
    fun loaded known => .pure fun schema succeeds path root first => ?_
  obtain ⟨same_files, keeps⟩ := Build.keeps_of_finish succeeds
  obtain ⟨file, entry, found, at_path, at_tree⟩ :=
    @IncludeWalk.exists_file_addRoots roots .empty path root first List.not_mem_nil
  obtain ⟨entry', found', path', tree', _⟩ := known.1 file entry found
  have same_path := List.find?_some first
  rw [beq_iff_eq] at same_path
  have tree : loaded.1.tree file = root := by
    rw [FileTable.tree, found', Option.map_some, Option.getD_some, tree', at_tree]
  have listed : file ∈ loaded.1.ids := by
    have inside := FileTable.get?_eq_some_iff.mp ⟨entry', found'⟩
    exact List.mem_map.mpr ⟨file.index, List.mem_range.mpr inside, rfl⟩
  constructor
  · refine ⟨file, entry', same_files ▸ found', ?_, tree'.trans at_tree, tree ▸ keeps file listed⟩
    rw [path', at_path, same_path]
  · intro other another another_found another_path
    rw [same_files] at another_found
    have member : another ∈ loaded.1.files := List.mem_of_getElem? another_found
    have member' : entry' ∈ loaded.1.files := List.mem_of_getElem? found'
    have same_paths : another.path = entry'.path := another_path.trans (path'.trans at_path).symm
    rw [List.inj_on_of_nodup_map known.2.1 member member' same_paths]
    exact tree'.trans at_tree

end Schema

/-- A file with one struct, which may include another file. -/
def namesake (name : String) (includes : List IncludeDecl) : FileTree :=
  let location := Location.start "a.thrift"
  { FileTree.empty "a.thrift" with
    includes
    structs := [⟨.plain name location, .struct, []⟩] }

/-- A resolver that finds a file with the path of a root, whatever it is asked. -/
def namesakeResolver : IncludeResolver Id :=
  .ofFunction fun _ _ => some ⟨"a.thrift", namesake "Found" []⟩

namespace Schema

set_option maxRecDepth 10000 in
theorem keepsRoots_of_build_namesakes :
    ∃ schema, build namesakeResolver .standard
        [namesake "First" [⟨.start "a.thrift", "b.thrift"⟩], namesake "Second" []] = .ok schema ∧
      schema.KeepsRoot (namesake "First" [⟨.start "a.thrift", "b.thrift"⟩]) := by
  have kept := SatisfiesM_Id_eq.mp (keepsRoots_of_build namesakeResolver .standard
    [namesake "First" [⟨.start "a.thrift", "b.thrift"⟩], namesake "Second" []])
  have built : (build namesakeResolver .standard [namesake "First"
      [⟨.start "a.thrift", "b.thrift"⟩], namesake "Second" []]).toBool = true := by
    cbv
  cases result : build namesakeResolver .standard
      [namesake "First" [⟨.start "a.thrift", "b.thrift"⟩], namesake "Second" []] with
  | error _ => rw [result] at built; cases built
  | ok schema => exact ⟨schema, rfl, (kept schema result "a.thrift" _ rfl).1⟩

set_option maxRecDepth 10000 in
/-- A root behind another one with its path is ignored, though nothing is reported. -/
theorem not_keepsRoots_of_build_namesakes :
    ¬ ∀ schema : Schema,
      build (m := Id) .none .standard [namesake "First" [], namesake "Second" []] = .ok schema →
        ∀ root ∈ [namesake "First" [], namesake "Second" []], schema.KeepsRoot root := by
  intro keeps
  have built : (build (m := Id) .none .standard
        [namesake "First" [], namesake "Second" []]).toOption.map (fun schema =>
          schema.files.files.map fun file => file.tree.structs.map (·.header.name)) =
      some [["First"]] := by
    cbv
  cases result : build (m := Id) .none .standard [namesake "First" [], namesake "Second" []] with
  | error _ => rw [result] at built; cases built
  | ok schema =>
      rw [result] at built
      obtain ⟨file, entry, found, _, same, _⟩ :=
        keeps schema result (namesake "Second" []) (List.mem_of_getElem? (i := 1) rfl)
      have names := List.mem_map_of_mem (f := fun file : SchemaFile =>
        file.tree.structs.map (·.header.name)) (List.mem_of_getElem? found)
      have structs : schema.files.files.map (fun file => file.tree.structs.map (·.header.name)) =
          [["First"]] := Option.some.inj built
      rw [structs, same] at names
      simp [namesake, Header.plain] at names

end Schema
end IdlSchema
