import IdlSchema.Proofs.Constants.Demands
import IdlSchema.Proofs.Constants.TypedValues
import IdlSchema.Proofs.Schema.FullyLinked

/-!
# Values of a schema

In a schema that is built, every constant and every default is of the type that it is declared with,
also where it comes from a constant of another file whose type has another name.
-/

namespace IdlSchema

open TypeGraph

namespace Model

/-- The fields of structs, unions and exceptions, and the parameters and exceptions of methods. -/
def fields {ν : Type} (model : Model ν) : List (Field ν) :=
  model.structs.flatMap (·.fields) ++ model.services.flatMap fun service =>
    service.methods.flatMap fun method => method.parameters ++ method.exceptions

end Model

/-- Every constant and every default is of its declared type. -/
structure Schema.WellTyped (schema : Schema) : Prop where
  constants : ∀ constant ∈ schema.model.constants,
    constant.value.HasType schema.model schema.graph constant.type
  defaults : ∀ field ∈ schema.model.fields, ∀ value, field.default? = some value →
    value.HasType schema.model schema.graph field.type

namespace ConstantScope

variable {scope : ConstantScope} {values : Nat → Option ConstantValue}

theorem field?_elaborateStruct (struct : StructType Literal) (name : String) :
    (scope.elaborateStruct values struct).field? name =
      (struct.field? name).map (scope.elaborateField values struct.file) := by
  rw [StructType.field?, elaborateStruct, List.find?_map]
  rfl

/-- A value keeps its types when the defaults of structs are checked. -/
theorem hasType_elaborateModel {value : ConstantValue} {id : TypeId}
    (typed : value.HasType scope.model scope.graph id) :
    value.HasType (scope.elaborateModel values) scope.graph id := by
  induction typed with
  | bool behind => exact .bool behind
  | integer behind range low high => exact .integer behind range low high
  | double behind => exact .double behind
  | string behind => exact .string behind
  | enumMember behind listed member => exact .enumMember behind listed member
  | list behind shape _ induction => exact .list behind shape induction
  | map behind shape _ _ induction induction' => exact .map behind shape induction induction'
  | @struct struct fields id behind listed named _ induction =>
      have listed' : scope.elaborateStruct values struct ∈ (scope.elaborateModel values).structs :=
        List.mem_map_of_mem listed
      refine .struct behind listed' (fun entry member => ?_) fun entry member field found => ?_
      · rw [field?_elaborateStruct, Option.isSome_map]
        exact named entry member
      · rw [field?_elaborateStruct] at found
        obtain ⟨field', found', rfl⟩ := Option.map_eq_some_iff.mp found
        exact induction entry member field' found'

/-- The fields of a checked model are those of the model, and their types are mentioned there. -/
theorem exists_field_of_mem {field : Field ConstantValue}
    (member : field ∈ (scope.elaborateModel values).fields) :
    ∃ file field', field = scope.elaborateField values file field' ∧
      scope.model.Mentions scope.graph field'.type := by
  rcases List.mem_append.mp member with at_struct | at_service
  · obtain ⟨struct, listed, inside⟩ := List.mem_flatMap.mp at_struct
    obtain ⟨struct', listed', rfl⟩ := List.mem_map.mp listed
    obtain ⟨field', inside', rfl⟩ := List.mem_map.mp inside
    exact ⟨struct'.file, field', rfl,
      Model.mentions_of_mem (Model.mem_uses_of_field listed' inside')⟩
  · obtain ⟨service, listed, inside⟩ := List.mem_flatMap.mp at_service
    obtain ⟨service', listed', rfl⟩ := List.mem_map.mp listed
    obtain ⟨method, method_mem, inside⟩ := List.mem_flatMap.mp inside
    obtain ⟨method', method_mem', rfl⟩ := List.mem_map.mp method_mem
    have mentions {use : TypeUse × TypeId} (member : use ∈ method'.uses) :
        scope.model.Mentions scope.graph use.2 :=
      Model.mentions_of_mem (Model.mem_uses_of_method listed' method_mem' member)
    rcases List.mem_append.mp inside with at_parameter | at_exception
    · obtain ⟨field', inside', rfl⟩ := List.mem_map.mp at_parameter
      exact ⟨service'.file, field', rfl, mentions (Method.mem_uses_of_parameter inside')⟩
    · obtain ⟨field', inside', rfl⟩ := List.mem_map.mp at_exception
      exact ⟨service'.file, field', rfl, mentions (Method.mem_uses_of_exception inside')⟩

/-- A model that is checked with the right values of constants has well-typed values. -/
theorem wellTyped_elaborateModel (whole : scope.model.Whole scope.graph)
    (correct : ∀ index, scope.Correct index (values index)) (files : FileTable)
    (warnings : Diagnostics) :
    Schema.WellTyped
      { files, graph := scope.graph, model := scope.elaborateModel values, warnings } where
  constants constant member := by
    obtain ⟨⟨constant', index⟩, placed, found⟩ := List.mem_filterMap.mp member
    obtain ⟨value, valued, rfl⟩ := Option.map_eq_some_iff.mp found
    have at_index := List.mem_zipIdx_iff_getElem?.mp placed
    exact hasType_elaborateModel ((correct index).hasType whole at_index valued)
  defaults field member value given := by
    obtain ⟨file, field', rfl, mentioned⟩ := exists_field_of_mem member
    obtain ⟨literal, _, valued⟩ := Option.bind_eq_some_iff.mp given
    exact hasType_elaborateModel (hasType_elaborate whole correct file mentioned valued)

end ConstantScope

namespace FileTable

theorem LinksClearly.whole {files : FileTable} {order : List FileId} {warnDeprecated : Bool}
    (clearly : files.LinksClearly order warnDeprecated) :
    (files.literals order warnDeprecated).1.Whole (files.literals order warnDeprecated).2 where
  resolves := clearly.resolves
  enumKind _ := kind?_of_mem_enums files order warnDeprecated
  structKind _ := kind?_of_mem_structs files order warnDeprecated

/-- What is linked without errors is well typed. -/
theorem LinksClearly.wellTyped {files : FileTable} {order : List FileId} {warnDeprecated : Bool}
    (clearly : files.LinksClearly order warnDeprecated) (warnings : Diagnostics) :
    Schema.WellTyped
      { files
        graph := (files.literals order warnDeprecated).2
        model := (files.checked order warnDeprecated).1
        warnings } := by
  have whole : (files.constantScope order warnDeprecated).model.Whole
      (files.constantScope order warnDeprecated).graph := clearly.whole
  have graph : (files.literals order warnDeprecated).2 =
      (files.constantScope order warnDeprecated).graph := rfl
  rw [checked, graph]
  generalize files.constantScope order warnDeprecated = scope at whole ⊢
  rw [scope.checkModel_eq []]
  exact ConstantScope.wellTyped_elaborateModel whole (scope.correct_settled []) files warnings

end FileTable

/-- The values of a schema of a build that succeeds are well typed. -/
theorem Build.wellTyped_of_finish {files : FileTable} {found : Diagnostics}
    {warnDeprecated strict : Bool} {schema : Schema}
    (succeeds : (ofFiles files found warnDeprecated).finish strict = .ok schema) :
    schema.WellTyped := by
  obtain ⟨clearly, _, warnings, rfl⟩ := linksClearly_of_finish succeeds
  exact clearly.wellTyped warnings

/-- Whatever the roots, the resolver and the settings, the values of a schema are well typed. -/
theorem Schema.wellTyped_of_build {m : Type → Type} [Monad m] [LawfulMonad m]
    (resolver : IncludeResolver m) (config : SchemaConfig) (roots : List FileTree) :
    ∃ typed : m { result : Except Diagnostics Schema //
        ∀ schema, result = .ok schema → schema.WellTyped },
      Subtype.val <$> typed = Schema.build resolver config roots :=
  Schema.exists_build resolver config roots fun _ _ _ => Build.wellTyped_of_finish

theorem Schema.wellTyped_of_build_listDefault :
    ∃ schema, Schema.build (m := Id) .none .standard [listDefaultTree] = .ok schema ∧
      schema.WellTyped := by
  obtain ⟨⟨result, typed⟩, same⟩ :=
    Schema.wellTyped_of_build (m := Id) .none .standard [listDefaultTree]
  have succeeds := Schema.build_listDefault
  replace same : result = Schema.build (m := Id) .none .standard [listDefaultTree] := same
  rw [← same] at succeeds ⊢
  cases result with
  | error _ => exact absurd succeeds Bool.false_ne_true
  | ok schema => exact ⟨schema, rfl, typed schema rfl⟩

end IdlSchema
