import IdlSchema.Proofs.Constants.MirroredChecks
import IdlSchema.Proofs.Constants.RenumberedPlans

/-!
# Checks in another numbering

Constants that are the same refer to constants that are the same, so they lead to themselves together
and have values that are alike by plain recursion.  A scope that renumbers one without errors is
therefore without errors, whatever is checked first there, and the checked models are alike.
-/

namespace IdlSchema

open Diagnostics Relation TypeGraph

namespace Plan.Alike

variable {uses : Reference → Reference → Prop} {values : ConstantValue → ConstantValue → Prop}
  {α : Type} {related : α → α → Prop} {plan plan' : Plan α}

theorem references (alike : plan.Alike uses values related plan') :
    List.Forall₂ uses plan.references plan'.references := by
  induction alike with
  | value _ => exact .nil
  | silent => exact .nil
  | refuse _ _ => exact .nil
  | refer holds => exact .cons holds .nil
  | both _ _ _ induction induction' => exact List.rel_append induction induction'

theorem evaluate_rel (alike : plan.Alike uses values related plan')
    {answer answer' : Reference → Option ConstantValue}
    (answers : ∀ use ∈ plan.references, ∀ use' ∈ plan'.references, uses use use' →
      Option.Rel values (answer use) (answer' use')) :
    Option.Rel related (plan.evaluate answer) (plan'.evaluate answer') := by
  induction alike with
  | value holds => exact .some holds
  | silent => exact .none
  | refuse _ _ => exact .none
  | refer holds =>
      exact answers _ (List.mem_singleton_self _) _ (List.mem_singleton_self _) holds
  | @both α β γ _ _ _ combine first first' second second' keeps _ _ induction induction' =>
      have at_first := induction fun use member use' member' =>
        answers use (List.mem_append_left _ member) use' (List.mem_append_left _ member')
      have at_second := induction' fun use member use' member' =>
        answers use (List.mem_append_right _ member) use' (List.mem_append_right _ member')
      rw [evaluate, evaluate]
      generalize first.evaluate answer = b?, first'.evaluate answer' = b?' at at_first
      generalize second.evaluate answer = c?, second'.evaluate answer' = c?' at at_second
      cases at_first with
      | none => exact .none
      | some holds =>
          cases at_second with
          | none => exact .none
          | some holds' => exact .some (keeps _ _ _ _ holds holds')

/-- A plan that is like one without errors has none, if the uses of constants have none. -/
theorem clear_problems {usable : Nat → Prop} {atUse atUse' : Reference → Diagnostics}
    (alike : plan.Alike uses values related plan') (vocal : plan.Vocal usable)
    (carries : ∀ use ∈ plan.references, usable use.index → ∀ use' ∈ plan'.references,
      uses use use' → Clear (atUse use) → Clear (atUse' use'))
    (clear : Clear (plan.problems atUse)) : Clear (plan'.problems atUse') := by
  induction alike with
  | value _ => exact clear_nil
  | silent => exact clear_nil
  | refuse problem _ => exact absurd clear (not_clear_of_mem (List.mem_singleton_self _) vocal)
  | refer holds =>
      exact carries _ (List.mem_singleton_self _) vocal _ (List.mem_singleton_self _) holds clear
  | both _ _ _ induction induction' =>
      rw [problems, clear_append] at clear ⊢
      refine ⟨induction vocal.1 (fun use member usable use' member' => ?_) clear.1,
        induction' vocal.2 (fun use member usable use' member' => ?_) clear.2⟩
      · exact carries use (List.mem_append_left _ member) usable use'
          (List.mem_append_left _ member')
      · exact carries use (List.mem_append_right _ member) usable use'
          (List.mem_append_right _ member')

end Plan.Alike

namespace ConstantScope

variable {scope scope' : ConstantScope} {index index' other other' : Nat}

/-! ## Constants that are the same -/

theorem SameAt.unique_left (distinct : scope.Distinct) (same : scope.SameAt scope' index index')
    (same' : scope.SameAt scope' other index') : index = other := by
  obtain ⟨constant, constant', found, found', both⟩ := same
  obtain ⟨constant'', again, found'', found_again, both'⟩ := same'
  obtain rfl := Option.some.inj (found'.symm.trans found_again)
  exact distinct.index_eq found found'' (both.file.symm.trans both'.file)
    (both.name.symm.trans both'.name)

namespace Renumbers

variable (renumbers : scope.Renumbers scope')

include renumbers

theorem planAt (same : scope.SameAt scope' index index') :
    (scope.planAt index).Alike (scope.UsesAlike scope') (scope.ValuesAlike scope')
      (scope.ValuesAlike scope') (scope'.planAt index') := by
  obtain ⟨constant, constant', found, found', both⟩ := same
  rw [ConstantScope.planAt, ConstantScope.planAt, found, found']
  dsimp only
  rw [both.file, ← both.value]
  exact renumbers.plan constant.file both.type constant.value

/-- What a constant refers to is the same as what a constant refers to that is the same. -/
theorem exists_refers (same : scope.SameAt scope' index index')
    (refers : scope'.Refers index' other') :
    ∃ other, scope.Refers index other ∧ scope.SameAt scope' other other' := by
  obtain ⟨use', member, rfl⟩ := refers
  obtain ⟨use, inside, both⟩ := (renumbers.planAt same).references.exists_of_mem_right member
  exact ⟨use.index, ⟨use, inside, rfl⟩, both.twins⟩

/-- A constant leads to itself if one does that is the same. -/
theorem transGen_refers_self (same : scope.SameAt scope' index index')
    (cycle : TransGen scope'.Refers index' index') : TransGen scope.Refers index index :=
  @transGen_self _ _ scope'.Refers scope.Refers (fun index' index => scope.SameAt scope' index index')
    (fun _ _ _ same refers => renumbers.exists_refers same refers)
    (fun _ _ _ same same' => same.unique_left renumbers.apart.distinct same') _ _ same cycle

theorem exists_sameAt (inside : index' < scope'.model.constants.length) :
    ∃ index, scope.SameAt scope' index index' := by
  obtain ⟨constant, listed, both⟩ :=
    renumbers.model.constants.exists_of_mem_right (List.getElem_mem inside)
  obtain ⟨index, found⟩ := List.getElem?_of_mem listed
  exact ⟨index, constant, _, found, List.getElem?_eq_getElem inside, both⟩

/-! ## Values -/

theorem accept_rel {use use' : Reference} (uses : scope.UsesAlike scope' use use')
    {value? value?' : Option ConstantValue}
    (both : Option.Rel (scope.ValuesAlike scope') value? value?') :
    Option.Rel (scope.ValuesAlike scope') (scope.accept use value?)
      (scope'.accept use' value?') := by
  obtain ⟨constant, constant', found, found', same⟩ := uses.twins
  cases both with
  | none => exact .none
  | some holds =>
      simp only [accept, found, found', renumbers.graph.sameType_eq same.type uses.expected]
      split
      · exact .some holds
      · exact .none

/-- Constants that are the same have values that are alike by plain recursion. -/
theorem elaborates_rel (same : scope.SameAt scope' index index')
    {value? value?' : Option ConstantValue} (elaborates : scope.Elaborates index value?)
    (elaborates' : scope'.Elaborates index' value?') :
    Option.Rel (scope.ValuesAlike scope') value? value?' := by
  induction elaborates generalizing index' value?' with
  | intro _ induction =>
      obtain ⟨inner'⟩ := elaborates'
      rw [elaborateAt_eq, elaborateAt_eq]
      refine (renumbers.planAt same).evaluate_rel fun use member use' member' uses => ?_
      exact renumbers.accept_rel uses
        (induction _ ⟨use, member, rfl⟩ uses.twins (inner' _ ⟨use', member', rfl⟩))

/-! ## Problems -/

/-- A use of a constant of the right type is right wherever types are alike. -/
theorem clear_useProblems {use use' : Reference} (uses : scope.UsesAlike scope' use use')
    {stack stack' : List Nat} {values values' : Nat → Option ConstantValue}
    (valued : (values use.index).isSome) (idle : use'.index ∉ stack')
    (clear : Clear (scope.useProblems stack values use)) :
    Clear (scope'.useProblems stack' values' use') := by
  obtain ⟨constant, constant', found, found', same⟩ := uses.twins
  refine clear_of_sameType found' idle ?_
  rw [renumbers.graph.sameType_eq same.type uses.expected]
  exact sameType_of_clear found valued clear

end Renumbers

/-! ## Demands -/

/-- A literal is demanded in a file at types that are alike. -/
inductive DemandsAlike (scope scope' : ConstantScope) : Demand → Demand → Prop where
  | literal (file : FileId) {expected expected' : TypeId} (literal : Literal) :
      scope.TypesAlike scope' expected expected' →
      DemandsAlike scope scope' (.literal file expected literal) (.literal file expected' literal)

theorem fieldDemands_alike {fields fields' : List (Field Literal)}
    (alike : List.Forall₂ (Field.Alike (scope.TypesAlike scope') Eq) fields fields')
    (file : FileId) :
    List.Forall₂ (DemandsAlike scope scope') (fieldDemands file fields)
      (fieldDemands file fields') := by
  refine List.rel_filterMap (fun field field' both => ?_) alike
  have defaults := both.default?
  generalize field.default? = default?, field'.default? = default?' at defaults ⊢
  cases defaults with
  | none => exact .none
  | some same =>
      cases same
      exact .some (.literal file _ both.type)

/-- The defaults of a model are demanded at types that are alike. -/
theorem Renumbers.modelDemands (renumbers : scope.Renumbers scope') :
    Corresponds (DemandsAlike scope scope') scope.modelDemands scope'.modelDemands := by
  refine .append (renumbers.model.structs.flatMap fun struct struct' both => ?_)
    (renumbers.model.services.flatMap fun service service' both => ?_)
  · exact both.file ▸ fieldDemands_alike both.fields struct.file
  · rw [both.file]
    refine List.rel_flatMap both.methods fun method method' alike => ?_
    exact List.rel_append (fieldDemands_alike alike.parameters service.file)
      (fieldDemands_alike alike.exceptions service.file)

/-! ## Checked models -/

/-- What is checked without errors is checked without errors in any order and numbering. -/
theorem Renumbers.clear_checkModel (renumbers : scope.Renumbers scope')
    (resolves : scope.model.Resolves scope.graph)
    (clear : Clear (scope.checkModel scope.initialState).2.reported) :
    Clear (scope'.checkModel scope'.initialState).2.reported := by
  have checked {index : Nat} := @valued_of_clear scope resolves clear index
  rw [state_checkModel] at clear ⊢
  obtain ⟨stack, _, clear_iff⟩ := exists_clear_settled_iff scope scope.modelDemands
  obtain ⟨stack', in_progress, clear_iff'⟩ := exists_clear_settled_iff scope' scope'.modelDemands
  obtain ⟨demands_clear, records_clear⟩ := clear_iff.mp clear
  refine clear_iff'.mpr ⟨?_, ?_⟩
  · intro demand' demanded'
    obtain ⟨demand, demanded, both⟩ := renumbers.modelDemands.exists_of_mem_right demanded'
    have quiet := demands_clear demand demanded
    cases both with
    | literal file literal at_type =>
        have vocal := vocal_of_mentions resolves file (mentions_of_modelDemand demanded) literal
        refine (renumbers.plan file at_type literal).clear_problems vocal ?_ quiet
        intro use _ inside use' _ uses
        exact renumbers.clear_useProblems uses (checked inside).1 List.not_mem_nil
  · intro index' inside'
    obtain ⟨index, same⟩ := renumbers.exists_sameAt inside'
    have inside : index < scope.model.constants.length := by
      obtain ⟨_, _, found, _, _⟩ := same
      exact (List.getElem?_eq_some_iff.mp found).1
    have quiet := records_clear index inside
    rw [recordProblems] at quiet ⊢
    refine (renumbers.planAt same).clear_problems (allVocal_of_resolves resolves index inside) ?_ quiet
    intro use _ use_inside use' used' uses
    refine renumbers.clear_useProblems uses (checked use_inside).1 fun busy => ?_
    -- What is in progress leads to the constant, so to use it would close a cycle.
    have back := (in_progress index' inside').2 use'.index busy
    exact (checked inside).2 (renumbers.transGen_refers_self same (.head' ⟨use', used', rfl⟩ back))

section

variable (renumbers : scope.Renumbers scope') {values values' : Nat → Option ConstantValue}
  (both : ∀ index index', scope.SameAt scope' index index' →
    Option.Rel (scope.ValuesAlike scope') (values index) (values' index'))

include renumbers both

/-- Fields have defaults that are alike, given values of all constants that are alike. -/
theorem Renumbers.elaborateFields {fields fields' : List (Field Literal)}
    (alike : List.Forall₂ (Field.Alike (scope.TypesAlike scope') Eq) fields fields')
    (file : FileId) : List.Forall₂ (Field.Alike (scope.TypesAlike scope') (scope.ValuesAlike scope'))
      (fields.map (scope.elaborateField values file))
      (fields'.map (scope'.elaborateField values' file)) := by
  rw [List.forall₂_map_left_iff, List.forall₂_map_right_iff]
  refine alike.imp fun field field' at_field => ⟨at_field.header, at_field.id,
    at_field.requiredness, at_field.type, ?_⟩
  have defaults := at_field.default?
  rw [elaborateField, elaborateField]
  generalize field.default? = default?, field'.default? = default?' at defaults
  cases defaults with
  | none => exact .none
  | @some literal _ same =>
      cases same
      rw [Option.bind_some, Option.bind_some, elaborate_eq, elaborate_eq]
      refine (renumbers.plan file at_field.type literal).evaluate_rel fun use _ use' _ uses => ?_
      exact renumbers.accept_rel uses (both _ _ uses.twins)

/-- Models are alike, given values of all constants that are alike. -/
theorem Renumbers.elaborateModel :
    (scope.elaborateModel values).Alike (scope.TypesAlike scope') (scope.ValuesAlike scope')
      (scope'.elaborateModel values') where
  typedefs := renumbers.model.typedefs
  enums := renumbers.model.enums
  structs := renumbers.model.structs.map fun struct struct' at_struct =>
    ⟨at_struct.header, at_struct.file, at_struct.id, at_struct.kind, by
      rw [elaborateStruct, elaborateStruct, at_struct.file]
      exact renumbers.elaborateFields both at_struct.fields struct.file⟩
  services := renumbers.model.services.map fun service service' at_service =>
    ⟨at_service.header, at_service.file, at_service.id, at_service.base?, by
      rw [elaborateService, elaborateService, at_service.file]
      rw [List.forall₂_map_left_iff, List.forall₂_map_right_iff]
      exact at_service.methods.imp fun method method' at_method => ⟨at_method.header,
        at_method.oneWay, at_method.returnType,
        renumbers.elaborateFields both at_method.parameters service.file,
        renumbers.elaborateFields both at_method.exceptions service.file⟩⟩
  constants := by
    have placed : Corresponds (fun placed placed' =>
        Constant.Alike (scope.TypesAlike scope') Eq placed.1 placed'.1 ∧
          scope.SameAt scope' placed.2 placed'.2)
        scope.model.constants.zipIdx scope'.model.constants.zipIdx :=
      renumbers.model.constants.zipIdx.imp_of_mem fun placed listed placed' listed' same => ⟨same,
        placed.1, placed'.1, List.mem_zipIdx_iff_getElem?.mp listed,
        List.mem_zipIdx_iff_getElem?.mp listed', same⟩
    refine placed.filterMap ?_
    rintro ⟨constant, index⟩ ⟨constant', index'⟩ ⟨alike, same⟩
    have at_constant := both _ _ same
    dsimp only [valuedConstant?]
    generalize values index = value?, values' index' = value?' at at_constant
    cases at_constant with
    | none => exact .none
    | some holds => exact .some ⟨alike.header, alike.file, alike.type, holds⟩

end

/-- Models that are checked without errors in different orders and numberings are alike. -/
theorem Renumbers.checkModel (renumbers : scope.Renumbers scope')
    (resolves : scope.model.Resolves scope.graph) (resolves' : scope'.model.Resolves scope'.graph)
    (clear : Clear (scope.checkModel scope.initialState).2.reported)
    (clear' : Clear (scope'.checkModel scope'.initialState).2.reported) :
    (scope.checkModel scope.initialState).1.Alike (scope.TypesAlike scope')
      (scope.ValuesAlike scope') (scope'.checkModel scope'.initialState).1 := by
  obtain ⟨values, checked, valued, correct, _⟩ := exists_values_of_clear resolves clear
  obtain ⟨values', checked', valued', correct', _⟩ := exists_values_of_clear resolves' clear'
  rw [checked, checked']
  refine renumbers.elaborateModel fun index index' same => ?_
  have ⟨_, _, found, found', _⟩ := same
  have value := valued index (List.getElem?_eq_some_iff.mp found).1
  have value' := valued' index' (List.getElem?_eq_some_iff.mp found').1
  refine renumbers.elaborates_rel same ((correct index).elaborates fun cyclic => ?_)
    ((correct' index').elaborates fun cyclic => ?_)
  · rw [(correct index).absent cyclic] at value
    cases value
  · rw [(correct' index').absent cyclic] at value'
    cases value'

end ConstantScope
end IdlSchema
