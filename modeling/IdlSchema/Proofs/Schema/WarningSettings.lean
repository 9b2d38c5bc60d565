import Mathlib
import IdlSchema.Proofs.DiagnosticOrder
import IdlSchema.Proofs.Files.LoadedFiles
import IdlSchema.Proofs.Link.DeprecatedUses
import IdlSchema.Proofs.Schema.RearrangedLinks
import IdlSchema.Proofs.Schema.UnplacedBuilds

/-!
# Settings for warnings

The settings for warnings do nothing but filter.  Without warnings for deprecated types, everything
is linked and reported as with them, but for the warnings themselves; these are given for exactly
the names that stand for deprecated types, once for each place.  Strict builds are those that would
succeed anyway and report nothing.
-/

namespace IdlSchema

open Diagnostics TypeGraph

/-! ## Deprecated types -/

/-- Of the declared types, only the one with a number can be found by it. -/
theorem TypeGraph.WellFormed.any_users {graph : TypeGraph} (wellFormed : graph.WellFormed)
    (id : TypeId) (holds : UserType → Bool) :
    graph.users.any (fun user => user.id == id && holds user) = (graph.user? id).any holds := by
  rw [Bool.eq_iff_iff, List.any_eq_true, Option.any_eq_true]
  constructor
  · rintro ⟨user, member, both⟩
    rw [Bool.and_eq_true, beq_iff_eq] at both
    exact ⟨user, both.1 ▸ wellFormed.user?_of_mem member, both.2⟩
  · rintro ⟨user, found, held⟩
    obtain ⟨index, _, at_index⟩ := user?_eq_some_iff.mp found
    refine ⟨user, List.mem_of_getElem? at_index, ?_⟩
    rw [wellFormed.id_of_user? found, beq_self_eq_true, held, Bool.and_self]

namespace Model

variable {ν : Type}

/-- The types that a model declares, with the headers of their declarations. -/
def typeHeaders (model : Model ν) : List (TypeId × Header) :=
  model.typedefs.map (fun typedef => (typedef.id, typedef.header)) ++
    model.enums.map (fun enum => (enum.id, enum.header)) ++
    model.structs.map (fun struct => (struct.id, struct.header)) ++
    model.services.map (fun service => (service.id, service.header))

/-- Whether a type is declared as deprecated. -/
def deprecates (model : Model ν) (id : TypeId) : Bool :=
  model.typeHeaders.any fun (other, header) => other == id && header.isDeprecated

theorem deprecates_eq_any (model : Model ν) (files : FileTable) (id : TypeId) :
    model.deprecates id =
      (model.linkedTypes files).any fun user => user.id == id && user.deprecated := by
  simp only [deprecates, typeHeaders, linkedTypes, List.any_append, List.any_map]
  rfl

end Model

namespace FileTable

variable (files : FileTable) (order : List FileId) (warnDeprecated : Bool)

/-- The final graph knows as deprecated what the final model does. -/
theorem deprecates_link (id : TypeId) : (files.link order warnDeprecated).model.deprecates id =
    ((files.link order warnDeprecated).graph.user? id).any (·.deprecated) := by
  have wellFormed : (files.link order warnDeprecated).graph.WellFormed :=
    files.wellFormed_literals order warnDeprecated
  rw [Model.deprecates_eq_any _ files, ← wellFormed.any_users,
    (files.users_link_perm order warnDeprecated).any_eq]

end FileTable

/-! ## Builds -/

namespace Build

/-- The build where the use of deprecated types is not reported. -/
def silenced (build : Build) : Build :=
  { build with reported := build.reported.exceptKind .deprecatedUsage }

/-- What names stand for in a build. -/
def scope (build : Build) : Scope :=
  { files := build.files, graph := build.graph, warnDeprecated := true }

/-- The warning for a name in a file, if it stands for a type that is declared as deprecated. -/
def usageWarning? (build : Build) (file : FileId) (named : Location × String) : Option Diagnostic :=
  (build.scope.declared? file named.2).bind fun id =>
    if build.model.deprecates id then
      some (.detailed .deprecatedUsage named.1 (build.graph.typeName id))
    else none

/-- One warning for each place where a name stands for a type that is declared as deprecated. -/
def usageWarnings (build : Build) : Diagnostics :=
  build.files.ids.flatMap fun file =>
    (useNames (build.files.tree file).uses).filterMap (build.usageWarning? file)

variable {files : FileTable} {found : Diagnostics}

/-- Without warnings, a build is the same but for them. -/
theorem ofFiles_quiet (among : Among includeKinds found) :
    ofFiles files found false = (ofFiles files found true).silenced := by
  simp only [ofFiles, silenced, exceptKind_append, files.graph_link_quiet, files.model_link_quiet,
    files.reported_link_quiet]
  rw [among.exceptKind_eq_self (by decide),
    (Model.among_problems _ _).exceptKind_eq_self (by decide)]

/-- The warning for a name is the one that linking gives. -/
theorem toList_usageWarning? {build : Build} (deprecates : ∀ id,
      build.model.deprecates id = (build.graph.user? id).any (·.deprecated))
    (file : FileId) (named : Location × String) :
    (build.usageWarning? file named).toList = build.scope.nameWarnings file named := by
  rw [usageWarning?, Scope.nameWarnings]
  cases build.scope.declared? file named.2 with
  | none => rfl
  | some id =>
      rw [Option.bind_some, Option.toList_some, List.flatMap_singleton, deprecates,
        Scope.deprecation, scope]
      dsimp only
      cases known : build.graph.user? id with
      | none => rfl
      | some user =>
          obtain ⟨index, at_id, _⟩ := user?_eq_some_iff.mp known
          have name : build.graph.typeName id = user.name.text := by
            rw [typeName, expression_user at_id, TypeExpression.text, userName, known,
              Option.map_some, Option.getD_some]
          dsimp only
          rw [Option.any_some, name, Bool.true_and]
          split <;> rfl

/-- The warnings of a build are those for the names that stand for deprecated types. -/
theorem usageWarnings_perm (among : Among includeKinds found) :
    ((ofFiles files found true).reported.ofKind .deprecatedUsage).Perm
      (ofFiles files found true).usageWarnings := by
  have deprecates (id : TypeId) : (ofFiles files found true).model.deprecates id =
      ((ofFiles files found true).graph.user? id).any (·.deprecated) := by
    simp only [ofFiles, FileTable.deprecates_link]
  have scope : (ofFiles files found true).scope =
      files.linkedScope files.dependencyOrder true := by
    simp only [Build.scope, ofFiles, FileTable.linkedScope]
  rw [reported_ofFiles, ofKind_append, among.ofKind_eq_nil (by decide), List.nil_append,
    FileTable.deprecated_link]
  refine (Scope.ofKind_typeProblems_perm _ (files.records_declared _)).trans
    ((files.dependencyOrder_perm.flatMap_right _).trans (.of_eq ?_))
  refine List.flatMap_congr fun file _ => ?_
  rw [List.filterMap_eq_flatMap_toList]
  refine List.flatMap_congr fun named _ => ?_
  rw [toList_usageWarning? deprecates, scope, FileTable.nameWarnings_linkedScope]

end Build

namespace Schema

/-- A build that counts warnings as errors, given one that does not. -/
def strictly : Except Diagnostics Schema → Except Diagnostics Schema
  | .ok schema => if schema.warnings.isEmpty then .ok schema else .error schema.warnings
  | .error diagnostics => .error diagnostics

end Schema

theorem Diagnostics.hasWarnings_of_clear {diagnostics : Diagnostics} (clear : Clear diagnostics) :
    diagnostics.hasWarnings = !diagnostics.isEmpty := by
  cases diagnostics with
  | nil => rfl
  | cons problem problems =>
      have no_error := clear problem List.mem_cons_self
      have warning : problem.isWarning = true := by
        rw [Diagnostic.isError] at no_error
        rw [Diagnostic.isWarning]
        cases severity : problem.severity with
        | error => rw [severity] at no_error; cases no_error
        | warning => rfl
      rw [hasWarnings, List.any_cons, warning, Bool.true_or]
      rfl

theorem Build.finish_strict (build : Build) :
    build.finish true = Schema.strictly (build.finish false) := by
  rw [finish, finish, fails, fails, Bool.true_and, Bool.false_and, Bool.or_false]
  cases errors : build.reported.sorted.hasErrors with
  | true => rfl
  | false =>
      rw [hasWarnings_of_clear (clear_iff_hasErrors.mpr errors)]
      cases empty : build.reported.sorted.isEmpty <;> simp [Schema.strictly, empty]

namespace Schema

variable {m : Type → Type} [Monad m]

/-- The settings for warnings filter what is reported, and they do nothing else. -/
structure FiltersWarnings (resolver : IncludeResolver m) (config : SchemaConfig)
    (roots : List FileTree) : Prop where
  /-- Without warnings for deprecated types, just these are missing from what is reported. -/
  silent : attempt resolver { config with warnDeprecated := false } roots =
    Build.silenced <$> attempt resolver { config with warnDeprecated := true } roots
  /-- They are missing in the order of presentation, too. -/
  presented :
    (·.reported.sorted) <$> attempt resolver { config with warnDeprecated := false } roots =
      (fun build : Build => build.reported.sorted.exceptKind .deprecatedUsage) <$>
        attempt resolver { config with warnDeprecated := true } roots
  /-- With them, there is one for each place where a name stands for a deprecated type. -/
  counted : SatisfiesM (fun build : Build =>
      (build.reported.ofKind .deprecatedUsage).Perm build.usageWarnings)
    (attempt resolver { config with warnDeprecated := true } roots)
  /-- What is built strictly is what is built otherwise without warnings. -/
  strict : build resolver { config with strict := true } roots =
    strictly <$> build resolver { config with strict := false } roots

/-- For all inputs and resolvers, the settings for warnings do nothing but filter. -/
theorem filtersWarnings [LawfulMonad m] (resolver : IncludeResolver m) (config : SchemaConfig)
    (roots : List FileTree) : FiltersWarnings resolver config roots := by
  obtain ⟨loaded, same⟩ :=
    FileTable.satisfiesM_load resolver config.maxIncludeDepth.toNat roots
  have attempted (warnDeprecated : Bool) :
      attempt resolver { config with warnDeprecated } roots =
        (fun loaded => Build.ofFiles loaded.1.1 loaded.1.2 warnDeprecated) <$> loaded := by
    rw [attempt, ← same, bind_map_left, map_eq_pure_bind]
  have silent : attempt resolver { config with warnDeprecated := false } roots =
      Build.silenced <$> attempt resolver { config with warnDeprecated := true } roots := by
    rw [attempted, attempted, Functor.map_map]
    exact map_congr fun loaded => Build.ofFiles_quiet loaded.2.2.2
  constructor
  case silent => exact silent
  case presented =>
    rw [silent, Functor.map_map]
    exact map_congr fun build => sorted_filter _ build.reported
  case counted =>
    rw [attempted]
    exact (SatisfiesM.of_true fun loaded => Build.usageWarnings_perm loaded.2.2.2).map id
  case strict =>
    rw [build_eq_finish, build_eq_finish, Functor.map_map]
    exact map_congr Build.finish_strict

end Schema

/-- A file with a deprecated type, which is used in collections and in a struct that is refused. -/
def outdatedTree : FileTree :=
  let location := Location.start "shop.thrift"
  let number : TypeReference := .named location "Number" .empty
  let field (id : Int16) (name : String) (type : TypeReference) : FieldDecl :=
    ⟨.plain name location, id, .default, type, none⟩
  { FileTree.empty "shop.thrift" with
    typedefs := [⟨{ Header.plain "Number" location with documentation := "@deprecated" },
      .named location "i64" .empty⟩]
    structs := [
      ⟨.plain "Order" location, .struct, [field 1 "items" (.list location number .empty)]⟩,
      ⟨.plain "Order" location, .union,
        [field 1 "counts" (.map location number (.set location number .empty) .empty)]⟩]
    constants := [⟨.plain "FIRST" location, number, .integer location 1⟩] }

namespace Schema

set_option maxRecDepth 10000 in
theorem filtersWarnings_outdated :
    (attempt (m := Id) .none .standard [outdatedTree]).reported.map (·.kind) =
        [.duplicateSymbol, .deprecatedUsage, .deprecatedUsage, .deprecatedUsage, .deprecatedUsage] ∧
      (attempt (m := Id) .none .standard [outdatedTree]).usageWarnings.length = 4 ∧
      FiltersWarnings (m := Id) .none .standard [outdatedTree] := by
  refine ⟨?_, ?_, filtersWarnings .none .standard [outdatedTree]⟩
  · cbv
  · cbv

end Schema
end IdlSchema
