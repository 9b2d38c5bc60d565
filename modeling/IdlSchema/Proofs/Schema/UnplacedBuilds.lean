import Mathlib
import IdlSchema.Proofs.Constants.UnplacedChecks
import IdlSchema.Proofs.Diagnostics
import IdlSchema.Proofs.Link.Linked
import IdlSchema.Proofs.Rules.UnplacedRules
import IdlSchema.Schema.Dump

/-!
# Builds without positions

Positions are passed on, and nothing depends on them.  Two inputs that differ in positions alone
lead to the same questions, the same types and declarations, and the same problems in the same
order, all but for positions; either both are built, and shown as the same text, or neither is.
-/

namespace IdlSchema

/-! ## Linking -/

namespace FileTable

variable (files : FileTable) (order : List FileId) (warnDeprecated : Bool)

theorem declared_unplaced : files.unplaced.declared order =
    ((files.declared order).1.map FileDeclarations.unplaced, (files.declared order).2.unplaced) :=
  (Names.follows_declareFiles files order).apply .initial

theorem typeScope_unplaced : files.unplaced.typeScope order warnDeprecated =
    (files.typeScope order warnDeprecated).unplaced := by
  rw [typeScope, declared_unplaced]
  rfl

theorem literals_unplaced : files.unplaced.literals order warnDeprecated =
    ((files.literals order warnDeprecated).1.unplaced Literal.unplaced,
      (files.literals order warnDeprecated).2.unplaced) := by
  rw [literals, typeScope_unplaced, declared_unplaced]
  exact ((files.typeScope order warnDeprecated).follows_linkTypes _).apply _

theorem constantScope_unplaced : files.unplaced.constantScope order warnDeprecated =
    (files.constantScope order warnDeprecated).unplaced := by
  rw [constantScope, literals_unplaced]
  rfl

theorem checked_unplaced : files.unplaced.checked order warnDeprecated =
    ((files.checked order warnDeprecated).1.unplaced id,
      (files.checked order warnDeprecated).2.unplaced) := by
  rw [checked, constantScope_unplaced, ConstantScope.initialState_unplaced]
  exact (files.constantScope order warnDeprecated).follows_checkModel.apply _

/-- Without positions, files are linked to the same graph. -/
theorem graph_link_unplaced : (files.unplaced.link order warnDeprecated).graph =
    (files.link order warnDeprecated).graph.unplaced :=
  congrArg Prod.snd (files.literals_unplaced order warnDeprecated)

/-- Without positions, files are linked to the same model. -/
theorem model_link_unplaced : (files.unplaced.link order warnDeprecated).model =
    (files.link order warnDeprecated).model.unplaced id :=
  congrArg Prod.fst (files.checked_unplaced order warnDeprecated)

/-- Without positions, the same problems are met while files are linked. -/
theorem reported_link_unplaced :
    (files.unplaced.link order warnDeprecated).reported.map Diagnostic.unplaced =
      (files.link order warnDeprecated).reported.map Diagnostic.unplaced := by
  have twice (problems : Diagnostics) :
      (problems.map Diagnostic.unplaced).map Diagnostic.unplaced =
        problems.map Diagnostic.unplaced := by
    simp only [List.map_map, Function.comp_def, Diagnostic.unplaced_unplaced]
  have names : ((files.declared order).1.map FileDeclarations.unplaced).flatMap (·.problems) =
      ((files.declared order).1.flatMap (·.problems)).map Diagnostic.unplaced := by
    rw [List.flatMap_map, List.map_flatMap]
    exact congrArg (List.flatMap · _) (funext FileDeclarations.problems_unplaced)
  have cycles := TypedefType.cycleProblems_unplaced (files.literals order warnDeprecated).2
    (files.literals order warnDeprecated).1.typedefs
  have values : (files.checked order warnDeprecated).2.unplaced.reported =
      (files.checked order warnDeprecated).2.reported.map Diagnostic.unplaced := rfl
  rw [link_eq, link_eq, declared_unplaced, typeScope_unplaced, literals_unplaced, checked_unplaced]
  simp only [Model.unplaced, List.map_append, names, cycles, values, twice,
    Scope.typeProblems_unplaced]

end FileTable

/-! ## Texts -/

namespace Schema

section

variable (graph : TypeGraph)

mutual

theorem valueText_unplaced (value : ConstantValue) :
    valueText graph.unplaced value = valueText graph value := by
  cases value with
  | bool value => cases value <;> rw [valueText, valueText]
  | enumMember enum name _ => rw [valueText, valueText, TypeGraph.typeName_unplaced]
  | list items => rw [valueText, valueText, itemTexts_unplaced items]
  | map entries => rw [valueText, valueText, entryTexts_unplaced entries]
  | struct fields => rw [valueText, valueText, fieldTexts_unplaced fields]
  | _ => rw [valueText, valueText]

theorem itemTexts_unplaced (items : List ConstantValue) :
    itemTexts graph.unplaced items = itemTexts graph items := by
  match items with
  | [] => rw [itemTexts, itemTexts]
  | item :: items =>
      rw [itemTexts, itemTexts, valueText_unplaced item, itemTexts_unplaced items]

theorem entryTexts_unplaced (entries : List (ConstantValue × ConstantValue)) :
    entryTexts graph.unplaced entries = entryTexts graph entries := by
  match entries with
  | [] => rw [entryTexts, entryTexts]
  | (key, value) :: entries =>
      rw [entryTexts, entryTexts, valueText_unplaced key, valueText_unplaced value,
        entryTexts_unplaced entries]

theorem fieldTexts_unplaced (fields : List (String × ConstantValue)) :
    fieldTexts graph.unplaced fields = fieldTexts graph fields := by
  match fields with
  | [] => rw [fieldTexts, fieldTexts]
  | (name, value) :: fields =>
      rw [fieldTexts, fieldTexts, valueText_unplaced value, fieldTexts_unplaced fields]

end

theorem parameterText_unplaced (field : Field ConstantValue) :
    parameterText graph.unplaced (field.unplaced id) = parameterText graph field := by
  simp only [parameterText, Field.unplaced, Option.map_id, id, TypeGraph.typeName_unplaced,
    valueText_unplaced]
  rfl

end

/-- The schema without positions and without warnings. -/
def unplaced (schema : Schema) : Schema :=
  { files := schema.files.unplaced
    graph := schema.graph.unplaced
    model := schema.model.unplaced id
    warnings := [] }

section

variable (schema : Schema) (annotations : Bool)

theorem typeName_unplaced (id : TypeId) :
    schema.unplaced.graph.typeName id = schema.graph.typeName id :=
  schema.graph.typeName_unplaced id

theorem typedefLines_unplaced (typedef : TypedefType) :
    schema.unplaced.typedefLines annotations typedef.unplaced =
      schema.typedefLines annotations typedef := by
  rw [typedefLines, typedefLines, typeName_unplaced, typeName_unplaced]
  rfl

theorem enumLines_unplaced (enum : EnumType) :
    schema.unplaced.enumLines annotations enum.unplaced = schema.enumLines annotations enum := by
  rw [enumLines, enumLines, typeName_unplaced, EnumType.unplaced, List.map_map]
  rfl

theorem structLines_unplaced (struct : StructType ConstantValue) :
    schema.unplaced.structLines annotations (struct.unplaced id) =
      schema.structLines annotations struct := by
  have field (field : Field ConstantValue) :
      numberedField schema.unplaced.graph (field.unplaced id) = numberedField schema.graph field := by
    have text : parameterText schema.unplaced.graph (field.unplaced id) =
        parameterText schema.graph field := parameterText_unplaced schema.graph field
    rw [numberedField, numberedField, text]
    rfl
  rw [structLines, structLines, typeName_unplaced, StructType.unplaced, List.map_map]
  simp only [Function.comp_def, field]
  rfl

theorem methodLine_unplaced (method : Method ConstantValue) :
    schema.unplaced.methodLine (method.unplaced id) = schema.methodLine method := by
  have parameter (field : Field ConstantValue) :
      numberedParameter schema.unplaced.graph (field.unplaced id) =
        numberedParameter schema.graph field := by
    have text : parameterText schema.unplaced.graph (field.unplaced id) =
        parameterText schema.graph field := parameterText_unplaced schema.graph field
    rw [numberedParameter, numberedParameter, text]
    rfl
  have fields (fields : List (Field ConstantValue)) :
      (fields.map (Field.unplaced id)).map (numberedParameter schema.unplaced.graph) =
        fields.map (numberedParameter schema.graph) := by
    rw [List.map_map]
    exact List.map_congr_left fun field _ => parameter field
  simp only [methodLine, Method.unplaced, fields, typeName_unplaced, List.isEmpty_map]
  rfl

theorem serviceLines_unplaced (service : ServiceType ConstantValue) :
    schema.unplaced.serviceLines annotations (service.unplaced id) =
      schema.serviceLines annotations service := by
  have methods : (service.methods.map (Method.unplaced id)).map schema.unplaced.methodLine =
      service.methods.map schema.methodLine := by
    rw [List.map_map]
    exact List.map_congr_left fun method _ => schema.methodLine_unplaced method
  simp only [serviceLines, ServiceType.unplaced, methods, typeName_unplaced]
  rfl

theorem constantLine_unplaced (constant : Constant ConstantValue) :
    schema.unplaced.constantLine (constant.unplaced id) = schema.constantLine constant := by
  have value : valueText schema.unplaced.graph constant.value =
      valueText schema.graph constant.value := valueText_unplaced schema.graph constant.value
  simp only [constantLine, Constant.unplaced, id, value, typeName_unplaced]
  rfl

theorem declarationLines_unplaced (file : FileId) :
    schema.unplaced.declarationLines annotations file =
      schema.declarationLines annotations file := by
  -- The declarations of a file are picked by the file alone.
  simp only [declarationLines, unplaced, Model.unplaced, List.filter_map, List.flatMap_map,
    List.map_map]
  congr 1
  · congr 1
    · congr 1
      · congr 1
        · exact congrArg (List.flatMap · _) (funext (schema.typedefLines_unplaced annotations))
        · exact congrArg (List.flatMap · _) (funext (schema.enumLines_unplaced annotations))
      · exact congrArg (List.flatMap · _) (funext (schema.structLines_unplaced annotations))
    · exact congrArg (List.flatMap · _) (funext (schema.serviceLines_unplaced annotations))
  · exact congrArg (List.map · _) (funext schema.constantLine_unplaced)

theorem fileLines_unplaced (id : FileId) (file : SchemaFile) :
    schema.unplaced.fileLines annotations id file.unplaced =
      schema.fileLines annotations id file := by
  have path (file : FileId) : schema.unplaced.files.path file = schema.files.path file :=
    schema.files.path_unplaced file
  simp only [fileLines, path, declarationLines_unplaced, SchemaFile.unplaced, FileTree.unplaced,
    List.map_map]
  rfl

/-- A schema is shown as the same text without positions. -/
theorem dump_unplaced : schema.unplaced.dump annotations = schema.dump annotations := by
  have files : schema.unplaced.files.files = schema.files.files.map SchemaFile.unplaced := rfl
  have blocks : (schema.unplaced.files.files.zipIdx.map fun entry =>
        schema.unplaced.fileLines annotations ⟨entry.2⟩ entry.1) =
      schema.files.files.zipIdx.map fun entry =>
        schema.fileLines annotations ⟨entry.2⟩ entry.1 := by
    rw [files, List.zipIdx_map, List.map_map]
    exact List.map_congr_left fun entry _ => schema.fileLines_unplaced annotations ⟨entry.2⟩ entry.1
  rw [dump, dump]
  exact congrArg (fun blocks => "\n".intercalate (List.map _ blocks)) blocks

end

end Schema

/-! ## Builds -/

namespace Build

/-- A build without positions. -/
def unplaced (build : Build) : Build :=
  { files := build.files.unplaced
    graph := build.graph.unplaced
    model := build.model.unplaced id
    reported := build.reported.map Diagnostic.unplaced }

/-- What is built depends on what was found without positions. -/
theorem unplaced_ofFiles (files : FileTable) (found : Diagnostics) (warnDeprecated : Bool) :
    (ofFiles files found warnDeprecated).unplaced =
      let build := ofFiles files.unplaced (found.map Diagnostic.unplaced) warnDeprecated
      { build with reported := build.reported.map Diagnostic.unplaced } := by
  have graph := files.graph_link_unplaced files.dependencyOrder warnDeprecated
  have model := files.model_link_unplaced files.dependencyOrder warnDeprecated
  have reported := files.reported_link_unplaced files.dependencyOrder warnDeprecated
  simp only [ofFiles, unplaced, FileTable.dependencyOrder_unplaced, graph, model, List.map_append,
    reported, Model.problems_unplaced, List.map_map, Function.comp_def,
    Diagnostic.unplaced_unplaced]

variable {build build' : Build}

/-- Whether a build fails does not depend on positions. -/
theorem fails_congr (same : build'.unplaced = build.unplaced) (strict : Bool) :
    fails strict build'.reported.sorted = fails strict build.reported.sorted := by
  have found (kind : Diagnostic → Bool) (only : ∀ problem, kind problem.unplaced = kind problem)
      (build : Build) : build.reported.sorted.any kind = build.unplaced.reported.any kind := by
    rw [unplaced, List.any_map, (Diagnostics.sorted_perm _).any_eq]
    exact congrArg _ (funext fun problem => (only problem).symm)
  rw [fails, fails, Diagnostics.hasErrors, Diagnostics.hasErrors, Diagnostics.hasWarnings,
    Diagnostics.hasWarnings, found _ (fun _ => rfl), found _ (fun _ => rfl),
    found _ (fun _ => rfl), found _ (fun _ => rfl), same]

end Build

namespace Schema

/-- The texts that a schema is shown as, with annotations or without, if it is built. -/
def texts? (result : Except Diagnostics Schema) : Option (Bool → String) :=
  result.toOption.map fun schema annotations => schema.dump annotations

/-- The build of some roots and what they include, before it is decided whether it succeeds. -/
def attempt {m : Type → Type} [Monad m] (resolver : IncludeResolver m) (config : SchemaConfig)
    (roots : List FileTree) : m Build := do
  let (files, found) ← FileTable.load resolver config.maxIncludeDepth.toNat roots
  return Build.ofFiles files found config.warnDeprecated

theorem texts?_finish_congr {build build' : Build} (same : build'.unplaced = build.unplaced)
    (strict : Bool) : texts? (build'.finish strict) = texts? (build.finish strict) := by
  rw [Build.finish, Build.finish, Build.fails_congr same]
  split
  · rfl
  · refine congrArg some (funext fun annotations => ?_)
    have text (build : Build) :
        dump ⟨build.files, build.graph, build.model, build.reported.sorted⟩ annotations =
          dump ⟨build.unplaced.files, build.unplaced.graph, build.unplaced.model, []⟩ annotations :=
      (dump_unplaced _ annotations).symm
    refine (text build').trans ?_
    rw [same]
    exact (text build).symm

variable {m : Type → Type} [Monad m] [LawfulMonad m]

theorem build_eq_finish (resolver : IncludeResolver m) (config : SchemaConfig)
    (roots : List FileTree) :
    build resolver config roots = (·.finish config.strict) <$> attempt resolver config roots := by
  rw [build, attempt, map_bind]
  simp only [map_pure]

theorem unplaced_attempt_congr {resolver resolver' : IncludeResolver m}
    (same_answers : resolver'.unplaced = resolver.unplaced) {roots roots' : List FileTree}
    (same_roots : roots'.map FileTree.unplacedRoot = roots.map FileTree.unplacedRoot)
    (config : SchemaConfig) : Build.unplaced <$> attempt resolver' config roots' =
      Build.unplaced <$> attempt resolver config roots := by
  have loaded (resolver : IncludeResolver m) (roots : List FileTree) :
      Build.unplaced <$> attempt resolver config roots =
        (fun loaded =>
            let build := Build.ofFiles loaded.1 loaded.2 config.warnDeprecated
            ({ build with reported := build.reported.map Diagnostic.unplaced } : Build)) <$>
          FileTable.unplacedLoad <$>
            FileTable.load resolver config.maxIncludeDepth.toNat roots := by
    rw [attempt, map_bind, ← comp_map, map_eq_pure_bind]
    refine bind_congr fun loaded => ?_
    rw [map_pure, Build.unplaced_ofFiles]
    rfl
  rw [loaded, loaded, FileTable.load_congr same_answers same_roots]

/--
Two inputs come to the same but for positions.  Runs record the questions to the resolver, so these
are the same and in the same order, too.
-/
structure SameButPositions (resolver resolver' : IncludeResolver m) (config : SchemaConfig)
    (roots roots' : List FileTree) : Prop where
  /-- The same files are found, and linked in the same way with the same problems in order. -/
  linked : Build.unplaced <$> attempt resolver'.recorded config roots' =
    Build.unplaced <$> attempt resolver.recorded config roots
  /-- Either both schemas are built, and shown as the same texts, or neither is. -/
  shown : texts? <$> build resolver'.recorded config roots' =
    texts? <$> build resolver.recorded config roots

/-- Inputs that differ in positions alone come to the same but for positions. -/
theorem sameButPositions {resolver resolver' : IncludeResolver m}
    (same_answers : resolver'.unplaced = resolver.unplaced) {roots roots' : List FileTree}
    (same_roots : roots'.map FileTree.unplacedRoot = roots.map FileTree.unplacedRoot)
    (config : SchemaConfig) : SameButPositions resolver resolver' config roots roots' := by
  have recorded : resolver'.recorded.unplaced = resolver.recorded.unplaced := by
    rw [IncludeResolver.unplaced_recorded, IncludeResolver.unplaced_recorded, same_answers]
  have linked := unplaced_attempt_congr recorded same_roots config
  refine ⟨linked, ?_⟩
  -- What is shown of a build is determined by the build without positions.
  have factors : Function.FactorsThrough (fun build : Build => texts? (build.finish config.strict))
      Build.unplaced := fun _ _ same => texts?_finish_congr same config.strict
  obtain ⟨shown, same⟩ := (Function.factorsThrough_iff _).mp factors
  have texts (resolver : IncludeResolver m) (roots : List FileTree) :
      texts? <$> build resolver.recorded config roots =
        shown <$> Build.unplaced <$> attempt resolver.recorded config roots := by
    rw [build_eq_finish, Functor.map_map, Functor.map_map, same]
    rfl
  rw [texts, texts, linked]

end Schema

/-- Two files, one of which includes the other, with their positions moved in some way. -/
def movedTrees (move : Location → Location) : FileTree × FileTree :=
  let shop := move (.start "shop.thrift")
  let goods := move (.start "goods.thrift")
  ({ FileTree.empty "shop.thrift" with
      includes := [⟨shop, "goods.thrift"⟩, ⟨shop, "missing.thrift"⟩]
      structs := [
        ⟨.plain "Order" shop, .struct, [⟨.plain "size" shop, 1, .required,
          .named shop "goods.Size" .empty, some (.identifier shop "goods.USUAL")⟩]⟩,
        ⟨.plain "Order" shop, .union, []⟩] },
    { FileTree.empty "goods.thrift" with
      location := goods
      typedefs := [⟨{ Header.plain "Size" goods with documentation := "@deprecated" },
        .named goods "i32" .empty⟩]
      constants := [⟨.plain "USUAL" goods, .named goods "Size" .empty, .integer goods 3⟩] })

/-- A resolver that finds the second of two files. -/
def movedResolver (move : Location → Location) : IncludeResolver Id :=
  .ofTable fun written => if written = "goods.thrift" then some (movedTrees move).2 else none

namespace Schema

theorem unplaced_movedResolver (move : Location → Location) :
    (movedResolver move).unplaced = (movedResolver id).unplaced := by
  refine congrArg IncludeResolver.mk (funext fun includer => funext fun written => ?_)
  by_cases goods : written = "goods.thrift"
  · subst goods
    rfl
  · simp [movedResolver, IncludeResolver.ofTable, IncludeResolver.ofFunction, goods]

theorem unplacedRoot_movedTrees (move : Location → Location) :
    [(movedTrees move).1].map FileTree.unplacedRoot =
      [(movedTrees id).1].map FileTree.unplacedRoot :=
  rfl

set_option maxRecDepth 10000 in
theorem sameButPositions_moved :
    (attempt (movedResolver id) .standard [(movedTrees id).1]).reported.map (·.kind) =
        [.unresolvedInclude, .duplicateSymbol, .deprecatedUsage, .deprecatedUsage] ∧
      SameButPositions (movedResolver id) (movedResolver fun _ => ⟨"elsewhere.thrift", 7, 9⟩)
        .standard [(movedTrees id).1] [(movedTrees fun _ => ⟨"elsewhere.thrift", 7, 9⟩).1] := by
  refine ⟨?_, sameButPositions (unplaced_movedResolver _) (unplacedRoot_movedTrees _) .standard⟩
  cbv

end Schema
end IdlSchema
