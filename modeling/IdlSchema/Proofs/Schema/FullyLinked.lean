import Mathlib
import IdlSchema.Proofs.Files.DependencyOrder
import IdlSchema.Proofs.Link.KeptDeclarations
import IdlSchema.Schema.Basic

/-!
# Schemas are fully linked

A schema is built only where no error is reported.  Each step that goes on after a problem reports
an error, so the types of a schema are whole, the values of its constants and defaults are there,
and nothing that is written in its files is missing.
-/

namespace IdlSchema

open Diagnostics Relation

/-- The types of a schema are whole, and everything that is written in its files is kept. -/
structure Schema.FullyLinked (schema : Schema) : Prop where
  valid : ∀ use ∈ schema.model.uses, ∀ part, schema.graph.Part part use.2 →
    part ≠ .invalid ∧
    (∃ shape, schema.graph.resolve part = .ok shape ∧ schema.graph.shape? part = some shape) ∧
    ∃ actual, schema.graph.trueType part = some actual
  values : ∀ use ∈ schema.model.uses, use.1.valuePosition?.isSome → schema.graph.HasValues use.2
  parameters : ∀ use ∈ schema.model.uses, ∀ part whole, schema.graph.Parameter part whole →
    schema.graph.Part whole use.2 → schema.graph.HasValues part
  files : schema.files.dependencyOrder.Perm schema.files.ids
  kept : KeepsModel schema.files schema.files.dependencyOrder schema.model

namespace ConstantScope

variable {scope : ConstantScope} {values : Nat → Option ConstantValue}

theorem mem_uses_of_mem_elaborateModel {use : TypeUse × TypeId}
    (member : use ∈ (scope.elaborateModel values).uses) : use ∈ scope.model.uses := by
  rcases Model.mem_uses_iff.mp member with ⟨typedef, listed, inside⟩ | ⟨struct, listed, inside⟩ |
    ⟨service, listed, inside⟩ | ⟨constant, listed, inside⟩
  · exact Model.mem_uses_iff.mpr (.inl ⟨typedef, listed, inside⟩)
  · obtain ⟨literal, literal_mem, rfl⟩ := List.mem_map.mp listed
    refine Model.mem_uses_iff.mpr (.inr (.inl ⟨literal, literal_mem, ?_⟩))
    simpa [StructType.uses, elaborateStruct, elaborateField] using inside
  · obtain ⟨literal, literal_mem, rfl⟩ := List.mem_map.mp listed
    refine Model.mem_uses_iff.mpr (.inr (.inr (.inl ⟨literal, literal_mem, ?_⟩)))
    simpa [ServiceType.uses, Method.uses, elaborateService, elaborateMethod, elaborateField]
      using inside
  · obtain ⟨placed, placed_mem, found⟩ := List.mem_filterMap.mp listed
    obtain ⟨value, _, rfl⟩ := Option.map_eq_some_iff.mp found
    refine Model.mem_uses_iff.mpr (.inr (.inr (.inr ⟨placed.1, ?_, inside⟩)))
    exact List.mem_of_getElem? (List.mem_zipIdx_iff_getElem?.mp placed_mem)

/-- The types of the checked model are those of the model whose values are literals. -/
theorem mem_uses_of_mem_checkModel (scope : ConstantScope) {use : TypeUse × TypeId}
    (member : use ∈ (scope.checkModel scope.initialState).1.uses) : use ∈ scope.model.uses := by
  rw [(yields_checkModel (sound_initialState scope)).value _ (.refl _)] at member
  exact mem_uses_of_mem_elaborateModel member

variable {types : Scope} {graph : TypeGraph}

/-- A field keeps its default if that has no error. -/
theorem keeps_elaborateField (resolves : scope.model.Resolves scope.graph)
    (valued : ∀ index < scope.model.constants.length, (values index).isSome) {file : FileId}
    {decl : FieldDecl} {field : Field Literal} {use : TypeUse}
    (linked : types.LinksField graph file decl field) (listed : (use, field.type) ∈ scope.model.uses)
    (clear : Clear (scope.fieldProblems values file field)) :
    KeepsField decl (scope.elaborateField values file field) := by
  refine ⟨linked.header, linked.id, linked.requiredness, ?_⟩
  rw [← linked.default?]
  exact isSome_default?_elaborateField resolves file (Model.mentions_of_mem listed) valued clear

theorem keeps_elaborateFields (resolves : scope.model.Resolves scope.graph)
    (valued : ∀ index < scope.model.constants.length, (values index).isSome) {file : FileId}
    {decls : List FieldDecl} {fields : List (Field Literal)} (use : TypeUse)
    (linked : List.Forall₂ (types.LinksField graph file) decls fields)
    (listed : ∀ field ∈ fields, (use, field.type) ∈ scope.model.uses)
    (clear : Clear (fields.flatMap (scope.fieldProblems values file))) :
    List.Forall₂ KeepsField decls (fields.map (scope.elaborateField values file)) := by
  rw [List.forall₂_map_right_iff]
  rw [clear_flatMap] at clear
  induction linked with
  | nil => exact .nil
  | cons first _ induction =>
      obtain ⟨first_listed, rest_listed⟩ := List.forall_mem_cons.mp listed
      obtain ⟨first_clear, rest_clear⟩ := List.forall_mem_cons.mp clear
      exact .cons (keeps_elaborateField resolves valued first first_listed first_clear)
        (induction rest_listed rest_clear)

theorem keeps_elaborateMethods (resolves : scope.model.Resolves scope.graph)
    (valued : ∀ index < scope.model.constants.length, (values index).isSome) {file : FileId}
    {decls : List FunctionDecl} {methods : List (Method Literal)}
    (linked : List.Forall₂ (types.LinksMethod graph file) decls methods)
    (listed : ∀ method ∈ methods, ∀ use ∈ method.uses, use ∈ scope.model.uses)
    (clear : Clear (methods.flatMap (scope.methodProblems values file))) :
    List.Forall₂ KeepsMethod decls (methods.map (scope.elaborateMethod values file)) := by
  rw [List.forall₂_map_right_iff]
  rw [clear_flatMap] at clear
  induction linked with
  | nil => exact .nil
  | @cons decl method _ _ first _ induction =>
      obtain ⟨first_listed, rest_listed⟩ := List.forall_mem_cons.mp listed
      obtain ⟨first_clear, rest_clear⟩ := List.forall_mem_cons.mp clear
      rw [methodProblems, clear_append] at first_clear
      refine .cons ⟨first.header, first.oneWay, ?_, ?_⟩ (induction rest_listed rest_clear)
      · refine keeps_elaborateFields resolves valued .parameter first.parameters
          (fun field member => first_listed _ ?_) first_clear.1
        exact Method.mem_uses_of_parameter member
      · refine keeps_elaborateFields resolves valued .exception first.exceptions
          (fun field member => first_listed _ ?_) first_clear.2
        exact Method.mem_uses_of_exception member

/-- Where all constants have values, all of them stay in the model. -/
theorem keeps_valuedConstants {written : List (FileId × ConstantDecl)}
    {constants : List (Constant Literal)} {start : Nat}
    (linked : List.Forall₂ (fun written literal => literal.header = written.2.header ∧
      literal.file = written.1) written constants)
    (valued : ∀ index < start + constants.length, (values index).isSome) :
    List.Forall₂ KeepsConstant written
      ((constants.zipIdx start).filterMap fun (constant, index) =>
        valuedConstant? values constant index) := by
  induction linked generalizing start with
  | nil => exact .nil
  | @cons _ constant _ constants first _ induction =>
      rw [List.length_cons] at valued
      obtain ⟨value, found⟩ := Option.isSome_iff_exists.mp (valued start (by omega))
      have here : valuedConstant? values constant start =
          some ⟨constant.header, constant.file, constant.type, value⟩ := by
        rw [valuedConstant?, found, Option.map_some]
      simp only [List.zipIdx_cons, List.filterMap_cons, here]
      refine .cons ⟨first.1, first.2⟩ (induction fun index inside => valued index ?_)
      omega

end ConstantScope

namespace FileTable.LinksClearly

variable {files : FileTable} {order : List FileId} {warnDeprecated : Bool}

theorem declarations_clear (clearly : files.LinksClearly order warnDeprecated)
    {declarations : FileDeclarations} (listed : declarations ∈ (files.declared order).1) :
    Clear (declarations.typedefs.filterMap (·.problem?)) ∧
      Clear (declarations.enums.filterMap (·.problem?)) ∧
      Clear (declarations.structs.filterMap (·.problem?)) ∧
      Clear (declarations.services.filterMap (·.problem?)) ∧
      Clear (declarations.constants.filterMap (·.problem?)) :=
  FileDeclarations.clear_problems.mp (clear_flatMap.mp clearly.declarations declarations listed)

/-- Without errors, the base that is written is that of the service. -/
theorem isSome_base? (clearly : files.LinksClearly order warnDeprecated)
    {accepted : FileId × ServiceDecl × TypeId} {base? : Option TypeId}
    (listed : accepted ∈ FileDeclarations.acceptedServices (files.declared order).1)
    (linked : (files.typeScope order warnDeprecated).LinksBase
      (files.literals order warnDeprecated).2 accepted.1 accepted.2.1.base? base?) :
    base?.isSome = accepted.2.1.base?.isSome := by
  generalize at_decl : accepted.2.1.base? = reference? at linked
  cases linked with
  | none => rfl
  | @failed reference stores =>
      have written : (.base, reference) ∈ accepted.2.1.uses := by
        refine List.mem_append_left _ ?_
        rw [at_decl]
        exact List.mem_singleton_self _
      have clear := clearly.types
      simp only [Scope.typeProblems, clear_append] at clear
      have at_base := clear_flatMap.mp (clear_flatMap.mp clear.1.1.2 accepted listed) _ written
      have wellFormed := wellFormed_literals files order warnDeprecated
      have failed := stores.expression
      rw [TypeGraph.expression_invalid wellFormed.invalid] at failed
      exact absurd failed.symm (Scope.intact_of_use at_base).1.1
  | some _ _ => rfl

theorem clear_linkMembers (clearly : files.LinksClearly order warnDeprecated)
    {accepted : FileId × EnumDecl × TypeId}
    (listed : accepted ∈ FileDeclarations.acceptedEnums (files.declared order).1) :
    Clear (linkMembers 0 accepted.2.1.members).2 := by
  have clear := clearly.types
  simp only [Scope.typeProblems, clear_append] at clear
  exact clear_flatMap.mp clear.1.1.1.1.2 accepted listed

/-- Without errors, the model has everything that is written. -/
theorem keepsModel (clearly : files.LinksClearly order warnDeprecated) :
    KeepsModel files order (files.checked order warnDeprecated).1 := by
  have records := files.records_declared order
  have linked := linksModel_literals files order warnDeprecated
  have resolves : (files.constantScope order warnDeprecated).model.Resolves
      (files.constantScope order warnDeprecated).graph := clearly.resolves
  obtain ⟨values, same, valued, _, clear⟩ :=
    ConstantScope.exists_values_of_clear resolves clearly.values
  rw [ConstantScope.defaultProblems, clear_append, clear_flatMap, clear_flatMap] at clear
  rw [checked, same]
  constructor
  case typedefs =>
    refine FileDeclarations.forall₂_written (FileDeclarations.accepted_eq_written
      (records.imp fun _ _ recorded => recorded.typedefs)
      fun _ listed => (clearly.declarations_clear listed).1) linked.typedefs ?_
    exact fun accepted _ typedef _ at_typedef => ⟨at_typedef.header, at_typedef.file⟩
  case enums =>
    refine FileDeclarations.forall₂_written (FileDeclarations.accepted_eq_written
      (records.imp fun _ _ recorded => recorded.enums)
      fun _ listed => (clearly.declarations_clear listed).2.1) linked.enums ?_
    rintro accepted listed enum _ ⟨rfl, _⟩
    exact ⟨rfl, rfl, keeps_linkMembers (clearly.clear_linkMembers listed)⟩
  case structs =>
    refine List.forall₂_map_right_iff.mpr (FileDeclarations.forall₂_written
      (FileDeclarations.accepted_eq_written (records.imp fun _ _ recorded => recorded.structs)
        fun _ listed => (clearly.declarations_clear listed).2.2.1) linked.structs ?_)
    intro accepted _ struct listed at_struct
    refine ⟨at_struct.header, at_struct.file, at_struct.kind, ?_⟩
    have fields_clear := clear.1 struct listed
    rw [ConstantScope.structProblems, at_struct.file] at fields_clear
    rw [ConstantScope.elaborateStruct, at_struct.file]
    exact ConstantScope.keeps_elaborateFields resolves valued .field at_struct.fields
      (fun field member => Model.mem_uses_of_field listed member) fields_clear
  case services =>
    refine List.forall₂_map_right_iff.mpr (FileDeclarations.forall₂_written
      (FileDeclarations.accepted_eq_written (records.imp fun _ _ recorded => recorded.services)
        fun _ listed => (clearly.declarations_clear listed).2.2.2.1) linked.services ?_)
    intro accepted accepted_mem service listed at_service
    refine ⟨at_service.header, at_service.file, clearly.isSome_base? accepted_mem at_service.base?,
      ?_⟩
    have methods_clear := clear.2 service listed
    rw [ConstantScope.serviceProblems, at_service.file] at methods_clear
    rw [ConstantScope.elaborateService, at_service.file]
    refine ConstantScope.keeps_elaborateMethods resolves valued at_service.methods
      (fun method member use inside => ?_) methods_clear
    exact Model.mem_uses_of_method listed member inside
  case constants =>
    refine ConstantScope.keeps_valuedConstants (FileDeclarations.forall₂_written
      (FileDeclarations.accepted_eq_written (records.imp fun _ _ recorded => recorded.constants)
        fun _ listed => (clearly.declarations_clear listed).2.2.2.2) linked.constants ?_) ?_
    · exact fun accepted _ constant _ at_constant => ⟨at_constant.header, at_constant.file⟩
    · rwa [Nat.zero_add]

/-- What is linked without errors is fully linked. -/
theorem fullyLinked (clearly : files.LinksClearly files.dependencyOrder warnDeprecated)
    (warnings : Diagnostics) :
    Schema.FullyLinked
      { files
        graph := (files.literals files.dependencyOrder warnDeprecated).2
        model := (files.checked files.dependencyOrder warnDeprecated).1
        warnings } := by
  have resolves := clearly.resolves
  have kept := clearly.keepsModel
  have uses (use : TypeUse × TypeId)
      (member : use ∈ (files.checked files.dependencyOrder warnDeprecated).1.uses) :
      use ∈ (files.literals files.dependencyOrder warnDeprecated).1.uses := by
    rw [checked] at member
    have inside := ConstantScope.mem_uses_of_mem_checkModel _ member
    dsimp only [constantScope] at inside
    exact inside
  generalize files.literals files.dependencyOrder warnDeprecated = literals at *
  generalize (files.checked files.dependencyOrder warnDeprecated).1 = model at *
  exact
    { valid := fun use member part below =>
        have mentioned := ⟨use, uses use member, below⟩
        ⟨resolves.ne_invalid mentioned, resolves.resolve mentioned, resolves.behind part⟩
      values := fun use member => resolves.values use (uses use member)
      parameters := fun use member => resolves.parameters use (uses use member)
      files := files.dependencyOrder_perm
      kept }

end FileTable.LinksClearly

namespace Build

/-- A build that succeeds has reported no error. -/
theorem clear_of_finish {files : FileTable} {graph : TypeGraph} {model : Model ConstantValue}
    {reported : Diagnostics} {strict : Bool} {schema : Schema}
    (succeeds : finish { files, graph, model, reported } strict = .ok schema) :
    Clear reported ∧ schema = { files, graph, model, warnings := reported.sorted } := by
  rw [finish] at succeeds
  split at succeeds
  · cases succeeds
  · rename_i no_failure
    rw [fails, Bool.or_eq_true, not_or, Bool.not_eq_true, ← clear_iff_hasErrors,
      clear_sorted] at no_failure
    exact ⟨no_failure.1, (Except.ok.inj succeeds).symm⟩

theorem ofFiles_eq (files : FileTable) (found : Diagnostics) (warnDeprecated : Bool) :
    ofFiles files found warnDeprecated =
      { files
        graph := (files.literals files.dependencyOrder warnDeprecated).2
        model := (files.checked files.dependencyOrder warnDeprecated).1
        reported := found ++ (files.link files.dependencyOrder warnDeprecated).reported ++
          (files.checked files.dependencyOrder warnDeprecated).1.problems
            (files.literals files.dependencyOrder warnDeprecated).2 } := by
  rw [ofFiles, FileTable.link_eq]

/-- A build that succeeds has linked its files without errors and found no violation of the rules. -/
theorem linksClearly_of_finish {files : FileTable} {found : Diagnostics}
    {warnDeprecated strict : Bool} {schema : Schema}
    (succeeds : (ofFiles files found warnDeprecated).finish strict = .ok schema) :
    files.LinksClearly files.dependencyOrder warnDeprecated ∧
      Clear ((files.checked files.dependencyOrder warnDeprecated).1.problems
        (files.literals files.dependencyOrder warnDeprecated).2) ∧
      ∃ warnings, schema =
        { files
          graph := (files.literals files.dependencyOrder warnDeprecated).2
          model := (files.checked files.dependencyOrder warnDeprecated).1
          warnings } := by
  rw [ofFiles_eq] at succeeds
  obtain ⟨clear, rfl⟩ := clear_of_finish succeeds
  rw [clear_append, clear_append] at clear
  exact ⟨FileTable.linksClearly_of_clear clear.1.2, clear.2, _, rfl⟩

/-- The schema of a build that succeeds is fully linked. -/
theorem fullyLinked_of_finish {files : FileTable} {found : Diagnostics} {warnDeprecated strict : Bool}
    {schema : Schema}
    (succeeds : (ofFiles files found warnDeprecated).finish strict = .ok schema) :
    schema.FullyLinked := by
  obtain ⟨clearly, _, warnings, rfl⟩ := linksClearly_of_finish succeeds
  exact clearly.fullyLinked warnings

end Build

/--
What is true of every schema that comes from files that were found is true of every schema that is
built, whatever the effects of the resolver.
-/
theorem Schema.exists_build {m : Type → Type} [Monad m] [LawfulMonad m]
    (resolver : IncludeResolver m) (config : SchemaConfig) (roots : List FileTree)
    {holds : Schema → Prop} (always : ∀ files found schema,
      (Build.ofFiles files found config.warnDeprecated).finish config.strict = .ok schema →
      holds schema) :
    ∃ built : m { result : Except Diagnostics Schema // ∀ schema, result = .ok schema →
        holds schema },
      Subtype.val <$> built = Schema.build resolver config roots := by
  rw [Schema.build]
  refine ⟨FileTable.load resolver config.maxIncludeDepth.toNat roots >>= fun loaded =>
    pure ⟨(Build.ofFiles loaded.1 loaded.2 config.warnDeprecated).finish config.strict,
      always loaded.1 loaded.2⟩, ?_⟩
  rw [map_bind]
  congr 1
  funext loaded
  exact map_pure _ _

/-- Whatever the roots, the resolver and the settings, a schema that is built is fully linked. -/
theorem Schema.fullyLinked_of_build {m : Type → Type} [Monad m] [LawfulMonad m]
    (resolver : IncludeResolver m) (config : SchemaConfig) (roots : List FileTree) :
    ∃ linked : m { result : Except Diagnostics Schema //
        ∀ schema, result = .ok schema → schema.FullyLinked },
      Subtype.val <$> linked = Schema.build resolver config roots :=
  Schema.exists_build resolver config roots fun _ _ _ => Build.fullyLinked_of_finish

/-- A file in which the default of a field is a list that uses a constant. -/
def listDefaultTree : FileTree :=
  let location := .start "list.thrift"
  { FileTree.empty "list.thrift" with
    typedefs := [⟨.plain "Count" location, .named location "i32" .empty⟩]
    constants := [⟨.plain "ONE" location, .named location "Count" .empty, .integer location 1⟩]
    structs := [⟨.plain "Counts" location, .struct,
      [⟨.plain "counts" location, 1, .default, .list location (.named location "Count" .empty) .empty,
        some (.list location [.identifier location "ONE"])⟩]⟩] }

set_option maxRecDepth 10000 in
theorem Schema.build_listDefault :
    (Schema.build (m := Id) .none .standard [listDefaultTree]).toBool = true := by
  cbv

theorem Schema.fullyLinked_of_build_listDefault :
    ∃ schema, Schema.build (m := Id) .none .standard [listDefaultTree] = .ok schema ∧
      schema.FullyLinked := by
  obtain ⟨⟨result, linked⟩, same⟩ :=
    Schema.fullyLinked_of_build (m := Id) .none .standard [listDefaultTree]
  have succeeds := Schema.build_listDefault
  replace same : result = Schema.build (m := Id) .none .standard [listDefaultTree] := same
  rw [← same] at succeeds ⊢
  cases result with
  | error _ => exact absurd succeeds Bool.false_ne_true
  | ok schema => exact ⟨schema, rfl, linked schema rfl⟩

end IdlSchema
