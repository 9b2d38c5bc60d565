import IdlSchema.Proofs.Link.DeclaredConstants
import IdlSchema.Proofs.Link.TypeNames
import IdlSchema.Proofs.Rules.Inheritance
import IdlSchema.Proofs.Schema.FullyLinked

/-!
# Schemas obey all rules

A schema is built only where the rules for models find no problem.  Since its types are whole, no
rule is met by a type that failed: what has to be an exception, a service or void is one.
-/

namespace IdlSchema

open Diagnostics Relation

namespace Model

variable {ν : Type}

/-- The lists in which fields must differ: fields of structs, parameters and exceptions. -/
def fieldLists (model : Model ν) : List (List (Field ν)) :=
  model.structs.map (·.fields) ++ model.services.flatMap fun service =>
    service.methods.flatMap fun method => [method.parameters, method.exceptions]

/-- The names of the constants of a model, each with its file. -/
def constantNames (model : Model ν) : List (FileId × String) :=
  model.constants.map fun constant => (constant.file, constant.name)

end Model

/-- A schema keeps to all rules that go beyond the form of single declarations. -/
structure Schema.ObeysRules (schema : Schema) : Prop where
  typeNames : schema.model.typeNames.Nodup
  keywords : ∀ entry ∈ schema.model.typeNames, Builtin.ofKeyword? entry.2 = none
  constantNames : schema.model.constantNames.Nodup
  fields : ∀ fields ∈ schema.model.fieldLists,
    (fields.map (·.id)).Nodup ∧ (fields.map (·.name)).Nodup
  enums : ∀ enum ∈ schema.model.enums,
    (enum.members.map (·.name)).Nodup ∧ (enum.members.map (·.value)).Nodup
  unions : ∀ union ∈ schema.model.structs, union.kind = .union →
    (∀ field ∈ union.fields, field.requiredness ≠ .required) ∧
      union.fields.countP (·.default?.isSome) ≤ 1
  exceptions : ∀ service ∈ schema.model.services, ∀ method ∈ service.methods,
    ∀ exception ∈ method.exceptions, ∃ struct ∈ schema.model.structs,
      struct.kind = .exception ∧ schema.graph.trueType exception.type = some struct.id
  oneWay : ∀ service ∈ schema.model.services, ∀ method ∈ service.methods,
    method.oneWay = true → schema.graph.trueType method.returnType = some (.ofBuiltin .void) ∧
      method.exceptions = []
  bases : ∀ service ∈ schema.model.services, ∀ base, service.base? = some base →
    ∃ ancestor ∈ schema.model.services, schema.graph.trueType base = some ancestor.id
  chains : ∀ chain : List (ServiceType ConstantValue),
    (∀ service ∈ chain, service ∈ schema.model.services) →
    chain.IsChain (ServiceType.Extends schema.graph) →
    (chain.map (·.id)).Nodup ∧ (chain.flatMap (·.methodNames)).Nodup

/-! ## Models without problems -/

namespace Model

variable {ν : Type} {model : Model ν} {graph : TypeGraph}

/-- Fields differ in all lists of a model without problems. -/
theorem nodup_of_mem_fieldLists (clear : Clear (model.problems graph)) {fields : List (Field ν)}
    (member : fields ∈ model.fieldLists) :
    (fields.map (·.id)).Nodup ∧ (fields.map (·.name)).Nodup := by
  obtain ⟨structs, _, methods, _⟩ := clear_problems_iff.mp clear
  rcases List.mem_append.mp member with in_struct | in_service
  · obtain ⟨struct, listed, rfl⟩ := List.mem_map.mp in_struct
    exact (StructType.clear_problems_iff.mp (structs struct listed)).1
  · obtain ⟨service, listed, in_method⟩ := List.mem_flatMap.mp in_service
    obtain ⟨method, method_mem, either⟩ := List.mem_flatMap.mp in_method
    have lists := (Method.clear_problems_iff.mp (methods service listed method method_mem)).1
    rcases List.mem_pair.mp either with rfl | rfl
    · exact lists.1
    · exact lists.2

end Model

namespace Model.Resolves

variable {ν : Type} {model : Model ν} {graph : TypeGraph} {id : TypeId}

/-- A mentioned type is no failed one. -/
theorem isInvalid_eq_false (resolves : model.Resolves graph) (mentioned : model.Mentions graph id) :
    graph.isInvalid id = false := by
  obtain ⟨actual, found⟩ := resolves.behind id
  have valid := resolves.ne_invalid (resolves.mentions_trueType mentioned found)
  rw [TypeGraph.isInvalid, found]
  exact beq_eq_false_iff_ne.mpr valid

end Model.Resolves

namespace TypeGraph

theorem exists_trueType_of_trueKind? {graph : TypeGraph} {id : TypeId} {kind : UserTypeKind}
    (found : graph.trueKind? id = some kind) :
    ∃ actual, graph.trueType id = some actual ∧ graph.kind? actual = some kind :=
  Option.bind_eq_some_iff.mp found

end TypeGraph

/-- A model declares the structs and services of a graph, and all that it declares is apart. -/
structure Model.Declares {ν : Type} (model : Model ν) (graph : TypeGraph) : Prop where
  typeNames : model.typeNames.Nodup
  keywords : ∀ entry ∈ model.typeNames, Builtin.ofKeyword? entry.2 = none
  constantNames : model.constantNames.Nodup
  serviceIds : (model.services.map (·.id)).Nodup
  structs : ∀ id kind, graph.kind? id = some (.struct kind) →
    ∃ struct ∈ model.structs, struct.id = id ∧ struct.kind = kind
  services : ∀ id, graph.kind? id = some .service → ∃ service ∈ model.services, service.id = id

/-! ## Checked models -/

namespace ConstantScope

variable {scope : ConstantScope} {values : Nat → Option ConstantValue}

theorem typeNames_elaborateModel :
    (scope.elaborateModel values).typeNames = scope.model.typeNames := by
  simp only [Model.typeNames, elaborateModel, List.map_map]
  rfl

theorem service_ids_elaborateModel :
    (scope.elaborateModel values).services.map (·.id) = scope.model.services.map (·.id) := by
  rw [elaborateModel, List.map_map]
  rfl

theorem constantNames_sublist :
    (scope.elaborateModel values).constantNames.Sublist scope.model.constantNames := by
  have from_start (constants : List (Constant Literal)) (start : Nat) :
      (((constants.zipIdx start).filterMap fun placed =>
          valuedConstant? values placed.1 placed.2).map fun constant =>
        (constant.file, constant.name)).Sublist
        (constants.map fun constant => (constant.file, constant.name)) := by
    induction constants generalizing start with
    | nil => exact List.Sublist.slnil
    | cons constant constants induction =>
        rw [List.zipIdx_cons, List.filterMap_cons, List.map_cons]
        dsimp only
        cases found : valuedConstant? values constant start with
        | none => exact .cons _ (induction (start + 1))
        | some valued =>
            obtain ⟨value, _, rfl⟩ := Option.map_eq_some_iff.mp found
            exact .cons_cons _ (induction (start + 1))
  exact from_start scope.model.constants 0

/-- The checked model declares what the model does whose values are literals. -/
theorem declares_elaborateModel (declares : scope.model.Declares scope.graph) :
    (scope.elaborateModel values).Declares scope.graph where
  typeNames := typeNames_elaborateModel ▸ declares.typeNames
  keywords := typeNames_elaborateModel ▸ declares.keywords
  constantNames := declares.constantNames.sublist constantNames_sublist
  serviceIds := service_ids_elaborateModel ▸ declares.serviceIds
  structs id kind found := by
    obtain ⟨struct, listed, same_id, same_kind⟩ := declares.structs id kind found
    exact ⟨_, List.mem_map_of_mem listed, same_id, same_kind⟩
  services id found := by
    obtain ⟨service, listed, same_id⟩ := declares.services id found
    exact ⟨_, List.mem_map_of_mem listed, same_id⟩

end ConstantScope

/-! ## Rules for whole types -/

/-- A model without problems and without failed types obeys the rules. -/
theorem Model.Declares.obeysRules {model : Model ConstantValue} {graph : TypeGraph}
    (declares : model.Declares graph)
    (valid : ∀ use ∈ model.uses, graph.isInvalid use.2 = false)
    (clear : Clear (model.problems graph)) (files : FileTable) (warnings : Diagnostics) :
    Schema.ObeysRules { files, graph, model, warnings } := by
  obtain ⟨structs, enums, methods, services⟩ := Model.clear_problems_iff.mp clear
  have in_method {service : ServiceType ConstantValue} (listed : service ∈ model.services)
      {method : Method ConstantValue} (member : method ∈ service.methods) {use : TypeUse × TypeId}
      (used : use ∈ method.uses) : graph.isInvalid use.2 = false :=
    valid use (Model.mem_uses_of_method listed member used)
  constructor
  case typeNames => exact declares.typeNames
  case keywords => exact declares.keywords
  case constantNames => exact declares.constantNames
  case fields => exact fun fields member => Model.nodup_of_mem_fieldLists clear member
  case enums => exact fun enum listed => EnumType.clear_problems_iff.mp (enums enum listed)
  case unions =>
    intro union listed is_union
    obtain ⟨optional, few⟩ := (StructType.clear_problems_iff.mp (structs union listed)).2 is_union
    exact ⟨fun field member => beq_eq_false_iff_ne.mp (optional field member), few⟩
  case exceptions =>
    intro service listed method member exception thrown
    have whole := in_method listed member (Method.mem_uses_of_exception thrown)
    have right := (Method.clear_problems_iff.mp (methods service listed method member)).2.1
      exception thrown
    rw [whole, TypeGraph.isException, beq_iff_eq] at right
    obtain ⟨actual, found, kind⟩ :=
      TypeGraph.exists_trueType_of_trueKind? (right.resolve_left Bool.false_ne_true)
    obtain ⟨struct, struct_mem, rfl, is_exception⟩ := declares.structs actual _ kind
    exact ⟨struct, struct_mem, is_exception, found⟩
  case oneWay =>
    intro service listed method member oneWay
    have used : (.returnType, method.returnType) ∈ method.uses := List.mem_cons_self
    have whole := in_method listed member used
    obtain ⟨right, throws_nothing⟩ :=
      (Method.clear_problems_iff.mp (methods service listed method member)).2.2 oneWay
    rw [whole, TypeGraph.isVoid, beq_iff_eq] at right
    exact ⟨right.resolve_right Bool.false_ne_true, throws_nothing⟩
  case bases =>
    intro service listed base given
    have whole : graph.isInvalid base = false :=
      valid (.base, base) (Model.mem_uses_of_base listed given)
    rw [ServiceType.problems, clear_append, clear_append, clear_flatMap] at services
    have right := ServiceType.clear_baseProblems_iff.mp (services.1.1 service listed) base given
    rw [whole, TypeGraph.isService, beq_iff_eq] at right
    obtain ⟨actual, found, kind⟩ :=
      TypeGraph.exists_trueType_of_trueKind? (right.resolve_right Bool.false_ne_true)
    obtain ⟨ancestor, ancestor_mem, rfl⟩ := declares.services actual kind
    exact ⟨ancestor, ancestor_mem, found⟩
  case chains =>
    exact fun chain listed linked =>
      ServiceType.nodup_chain declares.serviceIds services listed linked

namespace FileTable

variable (files : FileTable) (order : List FileId) (warnDeprecated : Bool)

/-- The model behind linking declares the types of the graph behind linking. -/
theorem declares_literals :
    (files.literals order warnDeprecated).1.Declares (files.literals order warnDeprecated).2 where
  typeNames := (apart_typeNames files order warnDeprecated).1
  keywords := (apart_typeNames files order warnDeprecated).2
  constantNames := distinct_constantScope files order warnDeprecated
  serviceIds := nodup_service_ids files order warnDeprecated
  structs _ _ := exists_struct_of_kind? files order warnDeprecated
  services _ := exists_service_of_kind? files order warnDeprecated

variable {files order warnDeprecated}

/-- What is linked without errors and has no problems obeys the rules. -/
theorem LinksClearly.obeysRules (clearly : files.LinksClearly order warnDeprecated)
    (clear : Clear ((files.checked order warnDeprecated).1.problems
      (files.literals order warnDeprecated).2)) (warnings : Diagnostics) :
    Schema.ObeysRules
      { files
        graph := (files.literals order warnDeprecated).2
        model := (files.checked order warnDeprecated).1
        warnings } := by
  have resolves : (files.constantScope order warnDeprecated).model.Resolves
      (files.constantScope order warnDeprecated).graph := clearly.resolves
  have declares : (files.constantScope order warnDeprecated).model.Declares
      (files.constantScope order warnDeprecated).graph :=
    declares_literals files order warnDeprecated
  have graph : (files.literals order warnDeprecated).2 =
      (files.constantScope order warnDeprecated).graph := rfl
  rw [checked, graph] at clear ⊢
  generalize files.constantScope order warnDeprecated = scope at clear resolves declares ⊢
  rw [scope.checkModel_eq []] at clear ⊢
  refine (ConstantScope.declares_elaborateModel declares).obeysRules (fun use member => ?_) clear
    files warnings
  exact resolves.isInvalid_eq_false
    (Model.mentions_of_mem (ConstantScope.mem_uses_of_mem_elaborateModel member))

end FileTable

/-- The schema of a build that succeeds obeys the rules. -/
theorem Build.obeysRules_of_finish {files : FileTable} {found : Diagnostics}
    {warnDeprecated strict : Bool} {schema : Schema}
    (succeeds : (ofFiles files found warnDeprecated).finish strict = .ok schema) :
    schema.ObeysRules := by
  obtain ⟨clearly, clear, warnings, rfl⟩ := linksClearly_of_finish succeeds
  exact clearly.obeysRules clear warnings

/-- Whatever the roots, the resolver and the settings, a schema that is built obeys the rules. -/
theorem Schema.obeysRules_of_build {m : Type → Type} [Monad m] [LawfulMonad m]
    (resolver : IncludeResolver m) (config : SchemaConfig) (roots : List FileTree) :
    ∃ ruled : m { result : Except Diagnostics Schema //
        ∀ schema, result = .ok schema → schema.ObeysRules },
      Subtype.val <$> ruled = Schema.build resolver config roots :=
  Schema.exists_build resolver config roots fun _ _ _ => Build.obeysRules_of_finish

/-- A file with a service that builds on another and throws an exception behind a typedef. -/
def serviceTree : FileTree :=
  let location := .start "shop.thrift"
  let named (name : String) : TypeReference := .named location name .empty
  let field (id : Int16) (name type : String) (default? : Option Literal) : FieldDecl :=
    ⟨.plain name location, id, .default, named type, default?⟩
  { FileTree.empty "shop.thrift" with
    typedefs := [⟨.plain "Failure" location, named "Failed"⟩]
    enums := [⟨.plain "Size" location,
      [⟨.plain "SMALL" location, some 1⟩, ⟨.plain "LARGE" location, none⟩]⟩]
    structs := [⟨.plain "Failed" location, .exception, [field 1 "size" "Size" none]⟩,
      ⟨.plain "Choice" location, .union,
        [field 1 "count" "i32" (some (.integer location 1)), field 2 "size" "Size" none]⟩]
    services := [⟨.plain "Base" location, none,
        [⟨.plain "ping" location, true, named "void", [], []⟩]⟩,
      ⟨.plain "Shop" location, some (named "Base"),
        [⟨.plain "buy" location, false, named "i32", [field 1 "choice" "Choice" none],
          [field 1 "failure" "Failure" none]⟩]⟩] }

set_option maxRecDepth 10000 in
theorem Schema.build_service :
    (Schema.build (m := Id) .none .standard [serviceTree]).toBool = true := by
  cbv

theorem Schema.obeysRules_of_build_service :
    ∃ schema, Schema.build (m := Id) .none .standard [serviceTree] = .ok schema ∧
      schema.ObeysRules := by
  obtain ⟨⟨result, ruled⟩, same⟩ :=
    Schema.obeysRules_of_build (m := Id) .none .standard [serviceTree]
  have succeeds := Schema.build_service
  replace same : result = Schema.build (m := Id) .none .standard [serviceTree] := same
  rw [← same] at succeeds ⊢
  cases result with
  | error _ => exact absurd succeeds Bool.false_ne_true
  | ok schema => exact ⟨schema, rfl, ruled schema rfl⟩

end IdlSchema
