import Mathlib
import IdlSchema.Proofs.Constants.MirroredChecks
import IdlSchema.Proofs.Files.Renaming
import IdlSchema.Proofs.Link.UnresolvedNames
import IdlSchema.Proofs.Rules.MirroredRules
import IdlSchema.Proofs.Schema.ObeyedRules

/-!
# Building in parallel, and names that fail

Where one table of files is linked without errors, another one that goes in parallel with weaker
types is linked with errors in its references at most: no typedef leads back to itself, all values fit,
and the model keeps to all rules.

Where some files are built without errors and names of types in them are replaced by ones that stand
for nothing, the errors of the new build are that these names are unresolved, each where it stands.
What a failed name would have stood for is never missed anywhere else.
-/

namespace IdlSchema

open Diagnostics TypeGraph

namespace ConstantScope

variable {loose : Prop} {scope mirror : ConstantScope} {values values' : Nat → Option ConstantValue}

theorem weakens_elaborateFields {fields fields' : List (Field Literal)}
    (images : List.Forall₂ (FieldImage loose scope.graph mirror.graph) fields fields')
    {file : FileId} (file' : FileId) (kept : ∀ field ∈ fields,
      (scope.elaborateField values file field).default?.isSome = field.default?.isSome) :
    List.Forall₂ (Field.Weakens loose scope.graph mirror.graph)
      (fields.map (scope.elaborateField values file))
      (fields'.map (mirror.elaborateField values' file')) := by
  induction images with
  | nil => exact .nil
  | cons image _ induction =>
      obtain ⟨first_kept, rest_kept⟩ := List.forall_mem_cons.mp kept
      refine .cons ⟨image.header, image.id, image.requiredness, image.type, fun given => ?_⟩
        (induction rest_kept)
      rw [first_kept, ← image.default?]
      exact Option.isSome_of_isSome_bind given

/-- Where all defaults are kept, the checked model of a mirror is weaker. -/
theorem Mirrors.weakens_elaborateModel (mirrors : Mirrors loose scope mirror)
    (services : List.Forall₂ (ServiceImage loose scope.graph mirror.graph) scope.model.services
      mirror.model.services)
    (kinds : ∀ service ∈ scope.model.services, scope.graph.kind? service.id = some .service)
    (resolves : scope.model.Resolves scope.graph)
    (valued : ∀ index < scope.model.constants.length, (values index).isSome)
    (clear : Clear (scope.defaultProblems values)) :
    (scope.elaborateModel values).Weakens loose scope.graph mirror.graph
      (mirror.elaborateModel values') := by
  rw [defaultProblems, clear_append, clear_flatMap, clear_flatMap] at clear
  obtain ⟨structs_clear, services_clear⟩ := clear
  have keeps {file : FileId} {fields : List (Field Literal)} (position : TypeUse)
      (listed : ∀ field ∈ fields, (position, field.type) ∈ scope.model.uses)
      (quiet : Clear (fields.flatMap (scope.fieldProblems values file))) :
      ∀ field ∈ fields,
        (scope.elaborateField values file field).default?.isSome = field.default?.isSome := by
    intro field member
    exact isSome_default?_elaborateField resolves file (Model.mentions_of_mem (listed field member))
      valued (clear_flatMap.mp quiet field member)
  constructor
  case enums => exact mirrors.enums
  case structs =>
    refine List.forall₂_map_left_iff.mpr (List.forall₂_map_right_iff.mpr ?_)
    refine mirrors.structs.imp_of_mem fun struct listed struct' image => ⟨image.kind, ?_⟩
    refine weakens_elaborateFields image.fields _ (keeps .field (fun field member => ?_)
      (structs_clear struct listed))
    exact Model.mem_uses_of_field listed member
  case services =>
    refine List.forall₂_map_left_iff.mpr (List.forall₂_map_right_iff.mpr ?_)
    refine services.imp_of_mem fun service listed service' image => ⟨image.id, image.base?, ?_⟩
    refine List.forall₂_map_left_iff.mpr (List.forall₂_map_right_iff.mpr ?_)
    refine image.methods.imp_of_mem fun method member method' at_method => ?_
    have quiet := clear_flatMap.mp (services_clear service listed) method member
    rw [methodProblems, clear_append] at quiet
    refine ⟨at_method.header, at_method.oneWay, at_method.returnType, ?_, ?_⟩
    · refine weakens_elaborateFields at_method.parameters _
        (keeps .parameter (fun field inside => ?_) quiet.1)
      exact Model.mem_uses_of_method listed member (Method.mem_uses_of_parameter inside)
    · refine weakens_elaborateFields at_method.exceptions _
        (keeps .exception (fun field inside => ?_) quiet.2)
      exact Model.mem_uses_of_method listed member (Method.mem_uses_of_exception inside)
  case serviceKind =>
    intro service listed
    obtain ⟨literal, literal_mem, rfl⟩ := List.mem_map.mp listed
    exact kinds literal literal_mem

end ConstantScope

namespace FileTable.Parallel

variable {loose : Prop} {files files' : FileTable} {order : List FileId} {warnDeprecated : Bool}

section

variable (parallel : files.Parallel loose files' order warnDeprecated)
  (clearly : files.LinksClearly order warnDeprecated)

include parallel clearly

theorem mirrors_of_clear : ConstantScope.Mirrors loose (files.constantScope order warnDeprecated)
    (files'.constantScope order warnDeprecated) :=
  parallel.mirrors fun _ => clearly.resolves.behind

theorem clear_cycles : Clear (TypedefType.cycleProblems (files'.literals order warnDeprecated).2
    (files'.literals order warnDeprecated).1.typedefs) :=
  TypedefType.clear_cycleProblems_of_images parallel.typedefs clearly.cycles

theorem clear_values : Clear (files'.checked order warnDeprecated).2.reported :=
  (parallel.mirrors_of_clear clearly).clear_checkModel parallel.services
    (distinct_constantScope files order warnDeprecated)
    (distinct_constantScope files' order warnDeprecated) clearly.resolves clearly.values

/-- The model that is linked in parallel keeps to all rules. -/
theorem clear_rules (clear : Clear ((files.checked order warnDeprecated).1.problems
      (files.literals order warnDeprecated).2)) :
    Clear ((files'.checked order warnDeprecated).1.problems
      (files'.literals order warnDeprecated).2) := by
  have mirrors := parallel.mirrors_of_clear clearly
  have resolves : (files.constantScope order warnDeprecated).model.Resolves
      (files.constantScope order warnDeprecated).graph := clearly.resolves
  obtain ⟨values, same, valued, _, defaults⟩ :=
    ConstantScope.exists_values_of_clear resolves clearly.values
  have same' := (files'.constantScope order warnDeprecated).checkModel_eq []
  rw [checked, same] at clear
  rw [checked, same']
  refine Model.Weakens.clear_problems ?_ mirrors.graph resolves.behind clear
  exact mirrors.weakens_elaborateModel parallel.services
    (fun _ => kind?_of_mem_services files order warnDeprecated) resolves valued defaults

end

end FileTable.Parallel
end IdlSchema

/-! # Names that fail -/

namespace IdlSchema

open Diagnostics

namespace FileTable

/-- The names in some files that the same files in another table have others for. -/
def replaced (files files' : FileTable) : List (Location × String) :=
  files.ids.flatMap fun file => (files.tree file).replaced (files'.tree file)

theorem dependencyOrder_edited (edit : FileTree.Edit) (files : FileTable) :
    (files.edited edit).dependencyOrder = files.dependencyOrder := by
  have same : (files.edited edit).includeGraph = files.includeGraph := by
    rw [includeGraph, includeGraph, edited, List.map_map]
    rfl
  rw [dependencyOrder, dependencyOrder, same]

end FileTable

/-- All names that an edit brings into some files stand for nothing there. -/
def FileTree.Edit.Breaks (edit : FileTree.Edit) (files : FileTable) : Prop :=
  ∀ file ∈ files.ids, (files.tree file).Renamed (files.StandsForNothing file)
    ((files.edited edit).tree file)

namespace Build

/--
A build of edited files, beside one of the files as they were, has the same files, edited.  If there was
no error and the names that come in stand for nothing, its errors are that they are unresolved.
-/
structure ReportsReplaced (edit : FileTree.Edit) (build build' : Build) : Prop where
  files : build'.files = build.files.edited edit
  findings : Clear build.reported → edit.Breaks build.files →
    build'.reported.findings.Perm (unresolvedNames (build.files.replaced build'.files))
  fails : Clear build.reported → edit.Breaks build.files → build.files.replaced build'.files ≠ [] →
    ∀ strict, build'.finish strict = .error build'.reported.sorted

/-- A build with errors fails, and what it shows are all problems. -/
theorem finish_of_findings {build : Build} (failed : build.reported.findings ≠ []) (strict : Bool) :
    build.finish strict = .error build.reported.sorted := by
  have errors : build.reported.sorted.hasErrors = true := by
    by_contra none_shown
    rw [Bool.not_eq_true, ← clear_iff_hasErrors, clear_sorted] at none_shown
    exact failed (findings_of_clear none_shown)
  rw [finish, fails, errors, Bool.true_or, if_pos rfl]

/-- Where there was no error, the errors are that the names that came in are unresolved. -/
theorem findings_edited (edit : FileTree.Edit) (files : FileTable) (found : Diagnostics)
    (warnDeprecated : Bool) (clear : Clear (ofFiles files found warnDeprecated).reported)
    (breaks : edit.Breaks files) :
    (ofFiles (files.edited edit) found warnDeprecated).reported.findings.Perm
      (unresolvedNames (files.replaced (files.edited edit))) := by
  rw [ofFiles_eq] at clear ⊢
  dsimp only at clear ⊢
  rw [clear_append, clear_append] at clear
  obtain ⟨⟨found_clear, links_clear⟩, rules_clear⟩ := clear
  have clearly := FileTable.linksClearly_of_clear links_clear
  have renamed : files.Renamed (files.edited edit) files.dependencyOrder :=
    ⟨files.includes_edited edit, files.qualifier_edited edit, fun file member =>
      breaks file (files.dependencyOrder_perm.mem_iff.mp member)⟩
  have parallel := renamed.parallel warnDeprecated
  rw [FileTable.dependencyOrder_edited, FileTable.link_eq]
  simp only [findings_append]
  rw [findings_of_clear found_clear,
    findings_of_clear (renamed.clear_declared clearly.declarations),
    findings_of_clear (parallel.clear_cycles clearly),
    findings_of_clear (parallel.clear_values clearly),
    findings_of_clear (parallel.clear_rules clearly rules_clear)]
  simp only [List.nil_append, List.append_nil]
  refine (renamed.findings_typeProblems clearly).trans ?_
  exact (files.dependencyOrder_perm.flatMap_right _).map _

theorem reportsReplaced_ofFiles (edit : FileTree.Edit) (files : FileTable) (found : Diagnostics)
    (warnDeprecated : Bool) : ReportsReplaced edit (ofFiles files found warnDeprecated)
      (ofFiles (files.edited edit) found warnDeprecated) where
  files := rfl
  findings := findings_edited edit files found warnDeprecated
  fails clear breaks some_replaced := by
    refine finish_of_findings fun none_found => some_replaced ?_
    have findings := findings_edited edit files found warnDeprecated clear breaks
    rw [none_found] at findings
    exact List.map_eq_nil_iff.mp findings.nil_eq.symm

end Build

/--
One bad name does not cascade: whatever the effects of the resolver, a build of edited roots and
includes runs beside the build of what they were, and reports the names that were replaced alone.
-/
theorem Schema.reportsReplaced_of_build {m : Type → Type} [Monad m] [LawfulMonad m]
    (edit : FileTree.Edit) (resolver : IncludeResolver m) (config : SchemaConfig)
    (roots : List FileTree) :
    ∃ both : m { builds : Build × Build // builds.1.ReportsReplaced edit builds.2 },
      (fun builds => builds.1.1.finish config.strict) <$> both =
          Schema.build resolver config roots ∧
        (fun builds => builds.1.2.finish config.strict) <$> both =
          Schema.build (resolver.edited edit) config
            (roots.map fun root => edit.apply root.path root) := by
  refine ⟨FileTable.load resolver config.maxIncludeDepth.toNat roots >>= fun loaded =>
    pure ⟨(.ofFiles loaded.1 loaded.2 config.warnDeprecated,
      .ofFiles (loaded.1.edited edit) loaded.2 config.warnDeprecated),
      Build.reportsReplaced_ofFiles edit loaded.1 loaded.2 config.warnDeprecated⟩, ?_, ?_⟩
  · rw [Schema.build, map_bind]
    exact bind_congr fun loaded => map_pure _ _
  · rw [Schema.build, FileTable.load_edited, map_bind, bind_map_left]
    exact bind_congr fun loaded => map_pure _ _

/-- Misspells the name of an exception, and gives that of a service a qualifier. -/
def misspell (name : String) : String :=
  if name = "Failed" then "Faild" else if name = "Base" then "other.Base" else name

/-- The table that has the file with services alone. -/
def serviceTable : FileTable :=
  { files := [{ path := "shop.thrift", tree := serviceTree, includes := [] }] }

theorem standsForNothing_misspell (name : String) (changed : name ≠ misspell name) :
    serviceTable.StandsForNothing ⟨0⟩ (misspell name) := by
  rw [misspell] at changed ⊢
  split_ifs at changed ⊢
  · rw [FileTable.StandsForNothing]
    refine ⟨by decide, ?_⟩
    have split : Text.splitFirst? "Faild" = none := by cbv
    rw [split]
    exact ⟨by decide, List.forall_mem_nil _⟩
  · rw [FileTable.StandsForNothing]
    refine ⟨by decide, ?_⟩
    have split : Text.splitFirst? "other.Base" = some ("other", "Base") := by cbv
    rw [split]
    exact ⟨by decide, List.forall_mem_nil _⟩
  · exact absurd rfl changed

theorem breaks_misspell : (FileTree.Edit.everywhere misspell).Breaks serviceTable := by
  intro file member
  obtain rfl : file = ⟨0⟩ := List.mem_singleton.mp member
  exact serviceTree.renamed_mapNames standsForNothing_misspell

set_option maxRecDepth 10000 in
theorem Schema.files_build_service :
    (Schema.build (m := Id) .none .standard [serviceTree]).map (·.files) = .ok serviceTable := by
  cbv

theorem replaced_misspell :
    serviceTable.replaced (serviceTable.edited (.everywhere misspell)) =
      [(.start "shop.thrift", "Faild"), (.start "shop.thrift", "other.Base")] := by
  cbv

theorem Schema.reportsReplaced_of_build_misspell :
    ∃ diagnostics, Schema.build (m := Id) .none .standard [serviceTree.mapNames misspell] =
        .error diagnostics ∧
      diagnostics.findings.Perm [(.unresolvedType, .start "shop.thrift"),
        (.unresolvedType, .start "shop.thrift")] := by
  obtain ⟨⟨builds, reports⟩, first, second⟩ :=
    Schema.reportsReplaced_of_build (m := Id) (.everywhere misspell) .none .standard [serviceTree]
  replace first : builds.1.finish false = Schema.build (m := Id) .none .standard [serviceTree] :=
    first
  replace second : builds.2.finish false =
      Schema.build (m := Id) .none .standard [serviceTree.mapNames misspell] := second
  have built := Schema.files_build_service
  rw [← first] at built
  cases result : builds.1.finish false with
  | error diagnostics =>
      rw [result] at built
      cases built
  | ok schema =>
      obtain ⟨clear, rfl⟩ := Build.clear_of_finish result
      rw [result] at built
      have files : builds.1.files = serviceTable := Except.ok.inj built
      have breaks : (FileTree.Edit.everywhere misspell).Breaks builds.1.files :=
        files ▸ breaks_misspell
      have replaced := replaced_misspell
      rw [← files, ← reports.files] at replaced
      have fails := reports.fails clear breaks (replaced ▸ List.cons_ne_nil _ _) false
      refine ⟨_, second.symm.trans fails, (findings_perm (sorted_perm _)).trans ?_⟩
      have findings := reports.findings clear breaks
      rwa [replaced] at findings

end IdlSchema
