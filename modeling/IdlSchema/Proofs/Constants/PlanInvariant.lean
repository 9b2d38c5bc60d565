import IdlSchema.Proofs.Constants.Plan

/-!
# What holds of every plan

A plan refuses with problems of two kinds only, and its parts are plans at types that go with the type of the
whole.  What these steps keep therefore holds of the plan of any literal.
-/

namespace IdlSchema
namespace ConstantScope

variable (scope : ConstantScope)

/-- The kinds of problems that a literal can have, apart from those of constants that it uses. -/
def literalKinds : List DiagnosticKind :=
  [.typeMismatch, .unresolvedConstant]

theorem isError_of_mem_literalKinds {problem : Diagnostic} (known : problem.kind ∈ literalKinds) :
    problem.isError = true := by
  rw [Diagnostic.isError, Diagnostic.severity]
  rcases List.mem_pair.mp known with same | same <;> rw [same] <;> rfl

/-- A property of plans that all steps of planning keep, at types of some sort. -/
structure PlanInvariant (typed : TypeId → Prop) (holds : {α : Type} → Plan α → Prop) : Prop where
  value {α : Type} (a : α) : holds (.value a)
  silent {α : Type} {expected : TypeId} : typed expected →
    scope.checkedType? expected = none → holds (.silent : Plan α)
  refuse {α : Type} {problem : Diagnostic} : problem.kind ∈ literalKinds →
    holds (.refuse problem : Plan α)
  refer {file : FileId} {reference : Reference} : typed reference.expected →
    scope.lookup file reference.name = some reference.index → holds (.refer reference)
  both {α β γ : Type} {combine : β → γ → α} {first : Plan β} {second : Plan γ} :
    holds first → holds second → holds (.both combine first second)
  element {expected actual element : TypeId} : typed expected →
    scope.checkedType? expected = some actual → scope.elementType? actual = some element →
    typed element
  entry {expected actual key value : TypeId} : typed expected →
    scope.checkedType? expected = some actual → scope.entryTypes? actual = some (key, value) →
    typed key ∧ typed value
  field {expected actual : TypeId} {struct : StructType Literal} {field : Field Literal} :
    typed expected → scope.checkedType? expected = some actual →
    scope.structAt? actual = some struct → field ∈ struct.fields → typed field.type

variable {scope}

theorem kind_of_scalarAt {expected actual : TypeId} {literal : Literal} {problem : Diagnostic}
    (refused : scope.scalarAt expected actual literal = .error problem) :
    problem.kind ∈ literalKinds := by
  rw [scalarAt.eq_def] at refused
  split at refused
  · rw [integerAt] at refused
    split at refused
    · cases refused
    · split at refused
      · cases refused
      · split at refused
        · cases refused
        · split at refused
          · cases refused
            exact List.mem_cons_self
          · split at refused
            · cases refused
            · cases refused
              exact List.mem_cons_self
  · cases refused
  · cases refused
  · cases refused
  · rw [memberAt] at refused
    split at refused
    · cases refused
    · cases refused
      exact List.mem_cons_self
  · cases refused
    exact List.mem_cons_self

theorem kind_unknownIdentifier (expected actual : TypeId) (location : Location) (name : String) :
    (scope.unknownIdentifier expected actual location name).kind ∈ literalKinds := by
  rw [unknownIdentifier]
  split
  · exact List.mem_cons_self
  · exact List.mem_cons_of_mem _ (List.mem_singleton_self _)

theorem kind_of_fieldAt {expected : TypeId} {struct : StructType Literal} {key : Literal}
    {problem : Diagnostic} (refused : scope.fieldAt expected struct key = .error problem) :
    problem.kind ∈ literalKinds := by
  rw [fieldAt.eq_def] at refused
  split at refused
  · split at refused
    · cases refused
    · cases refused
      exact List.mem_cons_self
  · cases refused
    exact List.mem_cons_self

theorem field?_of_fieldAt {expected : TypeId} {struct : StructType Literal} {key : Literal}
    {field : Field Literal} (found : scope.fieldAt expected struct key = .ok field) :
    ∃ location name, key = .string location name ∧ struct.field? name = some field := by
  rw [fieldAt.eq_def] at found
  split at found
  · split at found
    · rename_i at_name
      cases found
      exact ⟨_, _, rfl, at_name⟩
    · cases found
  · cases found

namespace PlanInvariant

variable {typed : TypeId → Prop} {holds : {α : Type} → Plan α → Prop}

theorem map (invariant : scope.PlanInvariant typed holds) {α β : Type} {change : β → α}
    {plan : Plan β} (inner : holds plan) : holds (plan.map change) :=
  invariant.both inner (invariant.value ())

theorem scalar (invariant : scope.PlanInvariant typed holds) (expected actual : TypeId)
    (literal : Literal) : holds (Plan.ofExcept (scope.scalarAt expected actual literal)) := by
  cases result : scope.scalarAt expected actual literal with
  | ok value => exact invariant.value value
  | error problem => exact invariant.refuse (kind_of_scalarAt result)

mutual

/-- What all steps of planning keep holds of the plan of a literal. -/
theorem plan (invariant : scope.PlanInvariant typed holds) (file : FileId) {expected : TypeId}
    (expected_typed : typed expected) (literal : Literal) :
    holds (scope.plan file expected literal) := by
  rw [plan.eq_def]
  cases at_expected : scope.checkedType? expected with
  | none => exact invariant.silent expected_typed at_expected
  | some actual =>
      cases literal with
      | integer location i => exact invariant.scalar expected actual _
      | double location x => exact invariant.scalar expected actual _
      | string location text => exact invariant.scalar expected actual _
      | identifier location name =>
          dsimp only
          cases scope.wordValue? actual name with
          | some value => exact invariant.value value
          | none =>
              cases found : scope.lookup file name with
              | some index => exact invariant.refer expected_typed found
              | none => exact invariant.refuse (kind_unknownIdentifier ..)
      | list location items =>
          dsimp only
          cases at_actual : scope.elementType? actual with
          | none => exact invariant.refuse List.mem_cons_self
          | some element =>
              exact invariant.map (invariant.planItems file
                (invariant.element expected_typed at_expected at_actual) items)
      | map location entries =>
          dsimp only
          cases at_actual : scope.entryTypes? actual with
          | some types =>
              obtain ⟨key_typed, value_typed⟩ :=
                invariant.entry expected_typed at_expected at_actual
              exact invariant.map (invariant.planEntries file key_typed value_typed entries)
          | none =>
              cases at_struct : scope.structAt? actual with
              | none => exact invariant.refuse List.mem_cons_self
              | some struct =>
                  exact invariant.map (invariant.planFields file expected (fun field member =>
                    invariant.field expected_typed at_expected at_struct member) entries)

theorem planItems (invariant : scope.PlanInvariant typed holds) (file : FileId)
    {element : TypeId} (element_typed : typed element) (items : List Literal) :
    holds (scope.planItems file element items) := by
  cases items with
  | nil =>
      rw [planItems.eq_def]
      exact invariant.value []
  | cons item items =>
      rw [planItems.eq_def]
      exact invariant.both (invariant.plan file element_typed item)
        (invariant.planItems file element_typed items)

theorem planEntries (invariant : scope.PlanInvariant typed holds) (file : FileId)
    {keyType valueType : TypeId} (key_typed : typed keyType) (value_typed : typed valueType)
    (entries : List (Literal × Literal)) :
    holds (scope.planEntries file keyType valueType entries) := by
  match entries with
  | [] =>
      rw [planEntries.eq_def]
      exact invariant.value []
  | (key, value) :: entries =>
      rw [planEntries.eq_def]
      exact invariant.both
        (invariant.both (invariant.plan file key_typed key) (invariant.plan file value_typed value))
        (invariant.planEntries file key_typed value_typed entries)

theorem planFields (invariant : scope.PlanInvariant typed holds) (file : FileId)
    (expected : TypeId) {struct : StructType Literal}
    (fields_typed : ∀ field ∈ struct.fields, typed field.type)
    (entries : List (Literal × Literal)) :
    holds (scope.planFields file expected struct entries) := by
  match entries with
  | [] =>
      rw [planFields.eq_def]
      exact invariant.value []
  | (key, value) :: entries =>
      rw [planFields.eq_def]
      refine invariant.both ?_ (invariant.planFields file expected fields_typed entries)
      cases at_key : scope.fieldAt expected struct key with
      | error problem => exact invariant.refuse (kind_of_fieldAt at_key)
      | ok field =>
          obtain ⟨location, name, _, found⟩ := field?_of_fieldAt at_key
          have member := List.mem_of_find?_eq_some found
          exact invariant.map (invariant.plan file (fields_typed field member) value)

end

end PlanInvariant

theorem lt_length_of_lookup {file : FileId} {name : String} {index : Nat}
    (found : scope.lookup file name = some index) : index < scope.model.constants.length := by
  have inside {source : FileId} {rest : String} (at_source : scope.constantIn? source rest =
      some index) : index < scope.model.constants.length :=
    (List.findIdx?_eq_some_iff_getElem.mp at_source).1
  rw [lookup.eq_def] at found
  dsimp only at found
  split at found
  · obtain ⟨included, _, at_included⟩ := List.exists_of_findSome?_eq_some found
    exact inside at_included
  · rcases Option.or_eq_some_iff.mp found with at_file | ⟨_, at_include⟩
    · exact inside at_file
    · obtain ⟨included, _, at_included⟩ := List.exists_of_findSome?_eq_some at_include
      exact inside at_included

/-- Where types can be checked against, no plan fails without an error. -/
theorem vocal_plan (typed : TypeId → Prop)
    (checked : ∀ expected, typed expected → scope.checkedType? expected ≠ none)
    (element : ∀ expected actual element, typed expected →
      scope.checkedType? expected = some actual → scope.elementType? actual = some element →
      typed element)
    (entry : ∀ expected actual key value, typed expected →
      scope.checkedType? expected = some actual → scope.entryTypes? actual = some (key, value) →
      typed key ∧ typed value)
    (field : ∀ expected actual struct, typed expected →
      scope.checkedType? expected = some actual → scope.structAt? actual = some struct →
      ∀ field ∈ struct.fields, typed field.type)
    (file : FileId) {expected : TypeId} (expected_typed : typed expected) (literal : Literal) :
    (scope.plan file expected literal).Vocal (· < scope.model.constants.length) := by
  have invariant : scope.PlanInvariant typed fun plan =>
      plan.Vocal (· < scope.model.constants.length) :=
    { value := fun _ => trivial
      silent := fun expected_typed absent => absurd absent (checked _ expected_typed)
      refuse := fun known => isError_of_mem_literalKinds known
      refer := fun _ found => lt_length_of_lookup found
      both := fun first second => ⟨first, second⟩
      element := fun expected_typed => element _ _ _ expected_typed
      entry := fun expected_typed => entry _ _ _ _ expected_typed
      field := fun expected_typed at_expected at_struct member =>
        field _ _ _ expected_typed at_expected at_struct _ member }
  exact invariant.plan file expected_typed literal

end ConstantScope
end IdlSchema
