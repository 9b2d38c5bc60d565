import IdlSchema.Proofs.Constants.MirroredValues
import IdlSchema.Proofs.Link.ParallelLinks

/-!
# Checks in a mirror

Where a scope is checked without errors, a scope that mirrors it is too, even if types have failed
there.  A plan either is silent or refuses where the other one does, constants are compared at images
of types that are the same, and what leads back to itself there does so here.
-/

namespace IdlSchema

open Diagnostics Relation TypeGraph

/-- An image of a plan without errors has none, if the uses of constants have none. -/
theorem Plan.Image.clear_problems {loose : Prop} {related : Reference → Reference → Prop} {α : Type}
    {plan plan' : Plan α} {usable : Nat → Prop} {atUse atUse' : Reference → Diagnostics}
    (image : plan.Image loose related plan') (vocal : plan.Vocal usable)
    (carries : ∀ use ∈ plan.references, usable use.index → ∀ use' ∈ plan'.references,
      related use use' → Clear (atUse use) → Clear (atUse' use'))
    (clear : Clear (plan.problems atUse)) : Clear (plan'.problems atUse') := by
  induction image with
  | value a => exact clear_nil
  | silent => exact clear_nil
  | failed plan _ => exact clear_nil
  | refuse problem problem' =>
      exact absurd clear (not_clear_of_mem (List.mem_singleton_self _) vocal)
  | refer holds =>
      exact carries _ (List.mem_singleton_self _) vocal _ (List.mem_singleton_self _) holds clear
  | both combine _ _ induction induction' =>
      rw [problems, clear_append] at clear ⊢
      refine ⟨induction vocal.1 (fun use member usable use' member' => ?_) clear.1,
        induction' vocal.2 (fun use member usable use' member' => ?_) clear.2⟩
      · exact carries use (List.mem_append_left _ member) usable use'
          (List.mem_append_left _ member')
      · exact carries use (List.mem_append_right _ member) usable use'
          (List.mem_append_right _ member')

namespace ConstantScope

variable {loose : Prop} {scope mirror : ConstantScope} {index index' other other' : Nat}

/-! ## Twins -/

theorem Twins.unique_left (distinct : scope.Distinct) (twins : Twins loose scope mirror index index')
    (twins' : Twins loose scope mirror other index') : index = other := by
  obtain ⟨constant, constant', found, found', image⟩ := twins
  obtain ⟨constant'', again, found'', found_again, image'⟩ := twins'
  obtain rfl := Option.some.inj (found'.symm.trans found_again)
  exact distinct.index_eq found found'' (image.file.symm.trans image'.file)
    (congrArg Header.name (image.header.symm.trans image'.header))

namespace Mirrors

variable (mirrors : Mirrors loose scope mirror)

include mirrors

/-- Every constant of a mirror is a twin. -/
theorem exists_twin (distinct' : mirror.Distinct) (inside : index' < mirror.model.constants.length) :
    ∃ index, Twins loose scope mirror index index' := by
  have found' := List.getElem?_eq_getElem inside
  have here := (constantIn?_eq_some_iff distinct').mpr ⟨_, found', rfl, rfl⟩
  have both := mirrors.constantIn? mirror.model.constants[index'].file
    mirror.model.constants[index'].name
  rw [here] at both
  generalize scope.constantIn? _ _ = index? at both
  cases both with
  | some twins => exact ⟨_, twins⟩

theorem exists_transGen_refers (twins : Twins loose scope mirror index index')
    (path : TransGen mirror.Refers index' other') :
    ∃ other, TransGen scope.Refers index other ∧ Twins loose scope mirror other other' := by
  induction path with
  | single last =>
      obtain ⟨other, refers, twins'⟩ := mirrors.exists_refers twins last
      exact ⟨other, .single refers, twins'⟩
  | tail _ last induction =>
      obtain ⟨between, path', twins'⟩ := induction
      obtain ⟨other, refers, twins''⟩ := mirrors.exists_refers twins' last
      exact ⟨other, path'.tail refers, twins''⟩

/-- A twin leads back to itself only if the constant does. -/
theorem transGen_refers_self (distinct : scope.Distinct)
    (twins : Twins loose scope mirror index index')
    (cycle : TransGen mirror.Refers index' index') : TransGen scope.Refers index index := by
  obtain ⟨other, path, twins'⟩ := mirrors.exists_transGen_refers twins cycle
  rwa [← twins.unique_left distinct twins'] at path

/-! ## Uses of constants -/

/-- A use of a constant of the right type is right in a mirror. -/
theorem clear_useProblems {use use' : Reference} (image : UseImage loose scope mirror use use')
    {stack stack' : List Nat} {values values' : Nat → Option ConstantValue}
    (valued : (values use.index).isSome) (idle : use'.index ∉ stack')
    (clear : Clear (scope.useProblems stack values use)) :
    Clear (mirror.useProblems stack' values' use') := by
  obtain ⟨constant, constant', found, found', at_constant⟩ := image.twins
  have same := sameType_of_clear found valued clear
  exact clear_of_sameType found' idle
    (mirrors.graph.sameType at_constant.type image.expected same)

end Mirrors

/-! ## Demands -/

/-- A literal is demanded at an image of the type at which it is demanded. -/
inductive DemandImage (loose : Prop) (scope mirror : ConstantScope) : Demand → Demand → Prop where
  | literal (file : FileId) {expected expected' : TypeId} (literal : Literal) :
      Image loose scope.graph mirror.graph expected expected' →
      DemandImage loose scope mirror (.literal file expected literal) (.literal file expected' literal)

theorem exists_fieldDemand {fields fields' : List (Field Literal)}
    (images : List.Forall₂ (FieldImage loose scope.graph mirror.graph) fields fields')
    (file : FileId) {demand' : Demand} (demanded : demand' ∈ fieldDemands file fields') :
    ∃ demand ∈ fieldDemands file fields, DemandImage loose scope mirror demand demand' := by
  obtain ⟨field', member', at_field'⟩ := List.mem_filterMap.mp demanded
  obtain ⟨literal, given', rfl⟩ := Option.map_eq_some_iff.mp at_field'
  obtain ⟨field, member, image⟩ := images.exists_of_mem_right member'
  rw [image.default?] at given'
  refine ⟨.literal file field.type literal, List.mem_filterMap.mpr ⟨field, member, ?_⟩,
    .literal file literal image.type⟩
  rw [given', Option.map_some]

/-- The defaults of a mirror are those of the scope, at images of their types. -/
theorem Mirrors.exists_demand (mirrors : Mirrors loose scope mirror)
    (services : List.Forall₂ (ServiceImage loose scope.graph mirror.graph) scope.model.services
      mirror.model.services)
    {demand' : Demand} (demanded : demand' ∈ mirror.modelDemands) :
    ∃ demand ∈ scope.modelDemands, DemandImage loose scope mirror demand demand' := by
  rcases List.mem_append.mp demanded with in_struct | in_service
  · obtain ⟨struct', listed', inside'⟩ := List.mem_flatMap.mp in_struct
    obtain ⟨struct, listed, image⟩ := mirrors.structs.exists_of_mem_right listed'
    rw [image.file] at inside'
    obtain ⟨demand, inside, at_demand⟩ := exists_fieldDemand image.fields struct.file inside'
    exact ⟨demand, List.mem_append_left _ (List.mem_flatMap.mpr ⟨struct, listed, inside⟩), at_demand⟩
  · obtain ⟨service', listed', in_method⟩ := List.mem_flatMap.mp in_service
    obtain ⟨method', member', inside'⟩ := List.mem_flatMap.mp in_method
    obtain ⟨service, listed, image⟩ := services.exists_of_mem_right listed'
    obtain ⟨method, member, at_method⟩ := image.methods.exists_of_mem_right member'
    rw [image.file] at inside'
    have found : ∃ demand ∈ methodDemands service.file method,
        DemandImage loose scope mirror demand demand' := by
      rcases List.mem_append.mp inside' with parameter | exception
      · obtain ⟨demand, inside, at_demand⟩ :=
          exists_fieldDemand at_method.parameters service.file parameter
        exact ⟨demand, List.mem_append_left _ inside, at_demand⟩
      · obtain ⟨demand, inside, at_demand⟩ :=
          exists_fieldDemand at_method.exceptions service.file exception
        exact ⟨demand, List.mem_append_right _ inside, at_demand⟩
    obtain ⟨demand, inside, at_demand⟩ := found
    exact ⟨demand, List.mem_append_right _ (List.mem_flatMap.mpr ⟨service, listed,
      List.mem_flatMap.mpr ⟨method, member, inside⟩⟩), at_demand⟩

theorem exists_field_of_fieldDemand {fields : List (Field Literal)} {file file' : FileId}
    {expected : TypeId} {literal : Literal}
    (demanded : .literal file' expected literal ∈ fieldDemands file fields) :
    ∃ field ∈ fields, field.type = expected := by
  obtain ⟨field, member, at_field⟩ := List.mem_filterMap.mp demanded
  obtain ⟨_, _, same⟩ := Option.map_eq_some_iff.mp at_field
  cases same
  exact ⟨field, member, rfl⟩

/-- What is demanded is demanded at types of the model. -/
theorem mentions_of_modelDemand {file : FileId} {expected : TypeId} {literal : Literal}
    (demanded : .literal file expected literal ∈ scope.modelDemands) :
    scope.model.Mentions scope.graph expected := by
  rcases List.mem_append.mp demanded with in_struct | in_service
  · obtain ⟨struct, listed, inside⟩ := List.mem_flatMap.mp in_struct
    obtain ⟨field, member, rfl⟩ := exists_field_of_fieldDemand inside
    exact Model.mentions_of_mem (Model.mem_uses_of_field listed member)
  · obtain ⟨service, listed, in_method⟩ := List.mem_flatMap.mp in_service
    obtain ⟨method, member, inside⟩ := List.mem_flatMap.mp in_method
    rcases List.mem_append.mp inside with parameter | exception
    · obtain ⟨field, field_mem, rfl⟩ := exists_field_of_fieldDemand parameter
      exact Model.mentions_of_mem
        (Model.mem_uses_of_method listed member (Method.mem_uses_of_parameter field_mem))
    · obtain ⟨field, field_mem, rfl⟩ := exists_field_of_fieldDemand exception
      exact Model.mentions_of_mem
        (Model.mem_uses_of_method listed member (Method.mem_uses_of_exception field_mem))

/-! ## Checked models -/

/-- Where a model is checked without errors, all constants have values and none leads to itself. -/
theorem valued_of_clear (resolves : scope.model.Resolves scope.graph)
    (clear : Clear (scope.checkModel scope.initialState).2.reported) {index : Nat}
    (inside : index < scope.model.constants.length) :
    ((scope.settled scope.modelDemands).value? index).isSome ∧
      ¬ TransGen scope.Refers index index := by
  obtain ⟨values, _, valued, correct, _⟩ := exists_values_of_clear resolves clear
  have value := valued index inside
  rw [(correct_settled scope scope.modelDemands index).unique (correct index)]
  refine ⟨value, fun cycle => ?_⟩
  rw [(correct index).absent ⟨index, .refl, cycle⟩] at value
  cases value

/-- What is checked without errors is checked without errors in a mirror. -/
theorem Mirrors.clear_checkModel (mirrors : Mirrors loose scope mirror)
    (services : List.Forall₂ (ServiceImage loose scope.graph mirror.graph) scope.model.services
      mirror.model.services)
    (distinct : scope.Distinct) (distinct' : mirror.Distinct)
    (resolves : scope.model.Resolves scope.graph)
    (clear : Clear (scope.checkModel scope.initialState).2.reported) :
    Clear (mirror.checkModel mirror.initialState).2.reported := by
  have checked {index : Nat} := @valued_of_clear scope resolves clear index
  rw [state_checkModel] at clear ⊢
  obtain ⟨stack, _, clear_iff⟩ := exists_clear_settled_iff scope scope.modelDemands
  obtain ⟨stack', in_progress, clear_iff'⟩ := exists_clear_settled_iff mirror mirror.modelDemands
  obtain ⟨demands_clear, records_clear⟩ := clear_iff.mp clear
  refine clear_iff'.mpr ⟨?_, ?_⟩
  · intro demand' demanded'
    obtain ⟨demand, demanded, image⟩ := mirrors.exists_demand services demanded'
    have quiet := demands_clear demand demanded
    cases image with
    | literal file literal at_type =>
        have vocal := vocal_of_mentions resolves file (mentions_of_modelDemand demanded) literal
        refine (mirrors.plan file at_type literal).clear_problems vocal ?_ quiet
        intro use _ inside use' _ image
        exact mirrors.clear_useProblems image (checked inside).1 List.not_mem_nil
  · intro index' inside'
    obtain ⟨index, twins⟩ := mirrors.exists_twin distinct' inside'
    have inside : index < scope.model.constants.length := by
      obtain ⟨_, _, found, _, _⟩ := twins
      exact (List.getElem?_eq_some_iff.mp found).1
    have quiet := records_clear index inside
    rw [recordProblems] at quiet ⊢
    refine (mirrors.planAt twins).clear_problems (allVocal_of_resolves resolves index inside) ?_ quiet
    intro use _ use_inside use' used' image
    refine mirrors.clear_useProblems image (checked use_inside).1 fun busy => ?_
    -- What is in progress leads to the constant, so to use it would close a cycle.
    have back := (in_progress index' inside').2 use'.index busy
    exact (checked inside).2 (mirrors.transGen_refers_self distinct twins (.head' ⟨use', used', rfl⟩ back))

end ConstantScope
end IdlSchema
