import IdlSchema.Proofs.Constants.Typing

/-!
# Checked values are well typed

The value of a plan is of the type that was expected, if the values of the constants that it uses are
of the types expected there.  A constant that is used has a type that is the same as that, so by
induction over plain recursion every constant has a value of its own type.
-/

namespace IdlSchema
namespace ConstantScope

open TypeGraph

variable {scope : ConstantScope} {answer : Reference → Option ConstantValue}

/-- The values that uses of constants are given are of the types expected there. -/
def AnswersTyped (scope : ConstantScope) (answer : Reference → Option ConstantValue)
    (uses : List Reference) : Prop :=
  ∀ use ∈ uses, ∀ value, answer use = some value →
    value.HasType scope.model scope.graph use.expected

theorem answersTyped_append {uses uses' : List Reference} :
    scope.AnswersTyped answer (uses ++ uses') ↔
      scope.AnswersTyped answer uses ∧ scope.AnswersTyped answer uses' :=
  List.forall_mem_append

section

variable {expected actual : TypeId} (behind : scope.graph.trueType expected = some actual)

include behind

theorem hasType_memberValue {enum : EnumType} {member : EnumMember}
    (found : scope.model.enum? actual = some enum) (inside : member ∈ enum.members) :
    (memberValue enum member).HasType scope.model scope.graph expected := by
  rw [Model.enum?] at found
  have same := List.find?_some found
  obtain rfl : enum.id = actual := eq_of_beq same
  exact .enumMember behind (List.mem_of_find?_eq_some found) inside

theorem hasType_integerAt {builtin : Builtin} {location : Location} {i : Int64}
    (at_actual : actual = .ofBuiltin builtin) {value : ConstantValue}
    (found : scope.integerAt expected builtin location i = .ok value) :
    value.HasType scope.model scope.graph expected := by
  subst at_actual
  rw [integerAt] at found
  split_ifs at found with no yes double
  · cases found
    exact .bool (no.1 ▸ behind)
  · cases found
    exact .bool (yes.1 ▸ behind)
  · cases found
    exact .double (double ▸ behind)
  · cases range : builtin.integerRange? with
    | none =>
        rw [range] at found
        cases found
    | some bounds =>
        rw [range] at found
        dsimp only at found
        split_ifs at found with inside
        cases found
        exact .integer behind range inside.1 inside.2

theorem hasType_scalarAt (wellFormed : scope.graph.WellFormed) {literal : Literal}
    {value : ConstantValue} (found : scope.scalarAt expected actual literal = .ok value) :
    value.HasType scope.model scope.graph expected := by
  rw [scalarAt.eq_def] at found
  split at found
  · rename_i at_actual
    exact hasType_integerAt behind (wellFormed.builtin?_eq_some_iff.mp at_actual) found
  · rename_i at_actual
    cases found
    exact .double (wellFormed.builtin?_eq_some_iff.mp at_actual ▸ behind)
  · rename_i at_actual
    cases found
    exact .string (.inl (wellFormed.builtin?_eq_some_iff.mp at_actual ▸ behind))
  · rename_i at_actual
    cases found
    exact .string (.inr (wellFormed.builtin?_eq_some_iff.mp at_actual ▸ behind))
  · rename_i at_enum
    rw [memberAt] at found
    split at found
    · rename_i at_value
      cases found
      exact hasType_memberValue behind at_enum (List.mem_of_find?_eq_some at_value)
    · cases found
  · cases found

theorem hasType_scalarPlan (wellFormed : scope.graph.WellFormed) {literal : Literal}
    {answer : Reference → Option ConstantValue} {value : ConstantValue}
    (found : (Plan.ofExcept (scope.scalarAt expected actual literal)).evaluate answer =
      some value) :
    value.HasType scope.model scope.graph expected := by
  cases result : scope.scalarAt expected actual literal with
  | error problem =>
      rw [result] at found
      cases found
  | ok value' =>
      rw [result] at found
      cases found
      exact hasType_scalarAt behind wellFormed result

theorem hasType_wordValue? {name : String} {value : ConstantValue}
    (found : scope.wordValue? actual name = some value) :
    value.HasType scope.model scope.graph expected := by
  rw [wordValue?] at found
  split_ifs at found with yes no
  · cases found
    exact .bool (yes.1 ▸ behind)
  · cases found
    exact .bool (no.1 ▸ behind)
  · obtain ⟨enum, at_enum, found'⟩ := Option.bind_eq_some_iff.mp found
    obtain ⟨word, _, found''⟩ := Option.bind_eq_some_iff.mp found'
    obtain ⟨member, at_name, same⟩ := Option.bind_eq_some_iff.mp found''
    cases same
    exact hasType_memberValue behind at_enum (List.mem_of_find?_eq_some at_name)

end

/-! ## Plans -/

theorem name_of_field? {struct : StructType Literal} {name : String} {field : Field Literal}
    (found : struct.field? name = some field) : field.name = name := by
  rw [StructType.field?] at found
  have same := List.find?_some found
  exact eq_of_beq same

section

variable (wellFormed : scope.graph.WellFormed) (file : FileId)

include wellFormed

-- Only `hasType_plan` reads `wellFormed` itself; the other three hand it to that theorem.
set_option linter.unusedSectionVars false

mutual

/-- The value of a literal is of the type that is expected of it. -/
theorem hasType_plan {expected : TypeId} (literal : Literal)
    (typed : scope.AnswersTyped answer (scope.plan file expected literal).references)
    {value : ConstantValue}
    (found : (scope.plan file expected literal).evaluate answer = some value) :
    value.HasType scope.model scope.graph expected := by
  rw [plan.eq_def] at typed found
  cases at_expected : scope.checkedType? expected with
  | none =>
      rw [at_expected] at found
      cases found
  | some actual =>
      have behind := (checkedType?_eq_some_iff.mp at_expected).1
      rw [at_expected] at typed found
      dsimp only at typed found
      cases literal with
      | integer location i => exact hasType_scalarPlan behind wellFormed found
      | double location x => exact hasType_scalarPlan behind wellFormed found
      | string location text => exact hasType_scalarPlan behind wellFormed found
      | identifier location name =>
          dsimp only at typed found
          cases at_word : scope.wordValue? actual name with
          | some word =>
              rw [at_word] at found
              cases found
              exact hasType_wordValue? behind at_word
          | none =>
              rw [at_word] at typed found
              cases at_name : scope.lookup file name with
              | none =>
                  rw [at_name] at found
                  cases found
              | some index =>
                  rw [at_name] at typed found
                  exact typed _ (List.mem_singleton_self _) value found
      | list location items =>
          dsimp only at typed found
          cases at_actual : scope.elementType? actual with
          | none =>
              rw [at_actual] at found
              cases found
          | some element =>
              rw [at_actual] at typed found
              obtain ⟨values, at_items, rfl⟩ := Plan.evaluate_map_eq_some found
              rw [Plan.references_map] at typed
              exact .list behind (elementType?_eq_some_iff.mp at_actual)
                (hasType_planItems items typed at_items)
      | map location entries =>
          dsimp only at typed found
          cases at_actual : scope.entryTypes? actual with
          | some types =>
              rw [at_actual] at typed found
              obtain ⟨values, at_entries, rfl⟩ := Plan.evaluate_map_eq_some found
              rw [Plan.references_map] at typed
              have inside := hasType_planEntries entries typed at_entries
              exact .map behind (entryTypes?_eq_some_iff.mp at_actual)
                (fun entry member => (inside entry member).1)
                fun entry member => (inside entry member).2
          | none =>
              cases at_struct : scope.structAt? actual with
              | none =>
                  rw [at_actual, at_struct] at found
                  cases found
              | some struct =>
                  rw [at_actual, at_struct] at typed found
                  obtain ⟨fields, at_fields, rfl⟩ := Plan.evaluate_map_eq_some found
                  rw [Plan.references_map] at typed
                  obtain ⟨listed, rfl⟩ := mem_of_structAt? at_struct
                  have inside := hasType_planFields entries typed at_fields
                  exact .struct behind listed (fun entry member => (inside entry member).1)
                    fun entry member => (inside entry member).2

theorem hasType_planItems {element : TypeId} (items : List Literal)
    (typed : scope.AnswersTyped answer (scope.planItems file element items).references)
    {values : List ConstantValue}
    (found : (scope.planItems file element items).evaluate answer = some values) :
    ∀ value ∈ values, value.HasType scope.model scope.graph element := by
  cases items with
  | nil =>
      rw [planItems.eq_def] at found
      cases found
      exact fun _ member => absurd member List.not_mem_nil
  | cons item items =>
      rw [planItems.eq_def] at typed found
      obtain ⟨value, values, at_item, at_items, rfl⟩ := Plan.evaluate_both_eq_some found
      obtain ⟨item_typed, items_typed⟩ := answersTyped_append.mp typed
      exact List.forall_mem_cons.mpr ⟨hasType_plan item item_typed at_item,
        hasType_planItems items items_typed at_items⟩

theorem hasType_planEntries {keyType valueType : TypeId} (entries : List (Literal × Literal))
    (typed : scope.AnswersTyped answer
      (scope.planEntries file keyType valueType entries).references)
    {values : List (ConstantValue × ConstantValue)}
    (found : (scope.planEntries file keyType valueType entries).evaluate answer = some values) :
    ∀ entry ∈ values, entry.1.HasType scope.model scope.graph keyType ∧
      entry.2.HasType scope.model scope.graph valueType := by
  match entries with
  | [] =>
      rw [planEntries.eq_def] at found
      cases found
      exact fun _ member => absurd member List.not_mem_nil
  | (key, value) :: entries =>
      rw [planEntries.eq_def] at typed found
      obtain ⟨entry, values, at_entry, at_entries, rfl⟩ := Plan.evaluate_both_eq_some found
      obtain ⟨first, second, at_key, at_value, rfl⟩ := Plan.evaluate_both_eq_some at_entry
      obtain ⟨entry_typed, entries_typed⟩ := answersTyped_append.mp typed
      obtain ⟨key_typed, value_typed⟩ := answersTyped_append.mp entry_typed
      exact List.forall_mem_cons.mpr ⟨⟨hasType_plan key key_typed at_key,
        hasType_plan value value_typed at_value⟩,
        hasType_planEntries entries entries_typed at_entries⟩

theorem hasType_planFields {expected : TypeId} {struct : StructType Literal}
    (entries : List (Literal × Literal))
    (typed : scope.AnswersTyped answer (scope.planFields file expected struct entries).references)
    {values : List (String × ConstantValue)}
    (found : (scope.planFields file expected struct entries).evaluate answer = some values) :
    ∀ entry ∈ values, (struct.field? entry.1).isSome ∧ ∀ field, struct.field? entry.1 = some field →
      entry.2.HasType scope.model scope.graph field.type := by
  match entries with
  | [] =>
      rw [planFields.eq_def] at found
      cases found
      exact fun _ member => absurd member List.not_mem_nil
  | (key, value) :: entries =>
      rw [planFields.eq_def] at typed found
      obtain ⟨entry, values, at_entry, at_entries, rfl⟩ := Plan.evaluate_both_eq_some found
      obtain ⟨entry_typed, entries_typed⟩ := answersTyped_append.mp typed
      refine List.forall_mem_cons.mpr ⟨?_, hasType_planFields entries entries_typed at_entries⟩
      cases at_key : scope.fieldAt expected struct key with
      | error problem =>
          rw [at_key] at at_entry
          cases at_entry
      | ok field =>
          rw [at_key] at at_entry entry_typed
          obtain ⟨given, at_value, rfl⟩ := Plan.evaluate_map_eq_some at_entry
          rw [Plan.references_map] at entry_typed
          obtain ⟨location, name, _, at_name⟩ := field?_of_fieldAt at_key
          dsimp only
          rw [name_of_field? at_name, at_name]
          refine ⟨rfl, fun field' at_field' => ?_⟩
          obtain rfl := Option.some.inj at_field'
          exact hasType_plan value entry_typed at_value

end

end

/-! ## Constants -/

/-- The types expected of the constants that a plan uses are types of the model. -/
theorem mentions_of_mem_references (resolves : scope.model.Resolves scope.graph) (file : FileId)
    {expected : TypeId} (mentioned : scope.model.Mentions scope.graph expected) (literal : Literal) :
    ∀ use ∈ (scope.plan file expected literal).references,
      scope.model.Mentions scope.graph use.expected := by
  have invariant : scope.PlanInvariant (scope.model.Mentions scope.graph) fun plan =>
      ∀ use ∈ plan.references, scope.model.Mentions scope.graph use.expected :=
    { value := fun _ _ member => absurd member List.not_mem_nil
      silent := fun _ _ _ member => absurd member List.not_mem_nil
      refuse := fun _ _ member => absurd member List.not_mem_nil
      refer := fun mentioned _ use member => by
        rw [List.mem_singleton.mp member]
        exact mentioned
      both := fun first second use member =>
        (List.mem_append.mp member).elim (first use) (second use)
      element := fun mentioned at_expected at_actual =>
        Model.Resolves.mentions_parameter (parameter_of_elementType? at_actual)
          (mentions_checkedType? resolves mentioned at_expected)
      entry := fun mentioned at_expected at_actual =>
        (parameter_of_entryTypes? at_actual).imp
          (fun below => Model.Resolves.mentions_parameter below
            (mentions_checkedType? resolves mentioned at_expected))
          fun below => Model.Resolves.mentions_parameter below
            (mentions_checkedType? resolves mentioned at_expected)
      field := fun _ _ at_struct member =>
        Model.mentions_of_mem (Model.mem_uses_of_field (mem_of_structAt? at_struct).1 member) }
  exact invariant.plan file mentioned literal

section

variable (whole : scope.model.Whole scope.graph)

include whole

/-- A constant is used only where its type is the same as the one expected. -/
theorem hasType_accept {use : Reference} {value? : Option ConstantValue} {value : ConstantValue}
    (mentioned : scope.model.Mentions scope.graph use.expected)
    (typed : ∀ constant, scope.model.constants[use.index]? = some constant →
      ∀ value, value? = some value → value.HasType scope.model scope.graph constant.type)
    (accepted : scope.accept use value? = some value) :
    value.HasType scope.model scope.graph use.expected := by
  rw [accept.eq_def] at accepted
  split at accepted
  · rename_i value' constant found
    split_ifs at accepted with same
    cases accepted
    have declared : scope.model.Mentions scope.graph constant.type :=
      Model.mentions_of_mem (Model.mem_uses_iff.mpr (.inr (.inr (.inr
        ⟨constant, List.mem_of_getElem? found, List.mem_singleton_self _⟩))))
    rw [whole.resolves.wellFormed.sameType_eq_true_iff (whole.resolves.lt_size declared)
      (whole.resolves.lt_size mentioned)] at same
    exact whole.hasType_of_same (typed constant found value rfl) same declared mentioned
  · cases accepted

/-- The value of a constant by plain recursion is of the type of the constant. -/
theorem Elaborates.hasType {index : Nat} {value? : Option ConstantValue}
    (elaborates : scope.Elaborates index value?) {constant : Constant Literal}
    (found : scope.model.constants[index]? = some constant) {value : ConstantValue}
    (valued : value? = some value) : value.HasType scope.model scope.graph constant.type := by
  induction elaborates generalizing constant value with
  | @intro index values _ induction =>
      rw [elaborateAt_eq, planAt, found] at valued
      have declared : scope.model.Mentions scope.graph constant.type :=
        Model.mentions_of_mem (Model.mem_uses_iff.mpr (.inr (.inr (.inr
          ⟨constant, List.mem_of_getElem? found, List.mem_singleton_self _⟩))))
      refine hasType_plan whole.resolves.wellFormed constant.file constant.value
        (fun use member value accepted => ?_) valued
      have refers : scope.Refers index use.index := ⟨use, by rwa [planAt, found], rfl⟩
      have mentioned :=
        mentions_of_mem_references whole.resolves constant.file declared constant.value use member
      exact hasType_accept whole mentioned
        (fun other at_other value valued => induction use.index refers at_other valued) accepted

/-- The right value of a constant is of the type of the constant. -/
theorem Correct.hasType {index : Nat} {value? : Option ConstantValue}
    (correct : scope.Correct index value?) {constant : Constant Literal}
    (found : scope.model.constants[index]? = some constant) {value : ConstantValue}
    (valued : value? = some value) : value.HasType scope.model scope.graph constant.type := by
  by_cases cyclic : scope.ReachesCycle index
  · rw [correct.absent cyclic] at valued
    cases valued
  · exact (correct.elaborates cyclic).hasType whole found valued

/-- The value of a literal is of the type that is expected, where the values of constants are right. -/
theorem hasType_elaborate {values : Nat → Option ConstantValue}
    (correct : ∀ index, scope.Correct index (values index)) (file : FileId) {expected : TypeId}
    (mentioned : scope.model.Mentions scope.graph expected) {literal : Literal}
    {value : ConstantValue} (valued : scope.elaborate values file expected literal = some value) :
    value.HasType scope.model scope.graph expected := by
  rw [elaborate_eq] at valued
  refine hasType_plan whole.resolves.wellFormed file literal (fun use member value accepted => ?_)
    valued
  have expected_mentioned :=
    mentions_of_mem_references whole.resolves file mentioned literal use member
  exact hasType_accept whole expected_mentioned
    (fun constant found value valued => (correct use.index).hasType whole found valued) accepted

end

end ConstantScope
end IdlSchema
