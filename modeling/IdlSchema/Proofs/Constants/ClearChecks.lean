import IdlSchema.Proofs.Constants.CheckedModel
import IdlSchema.Proofs.Constants.PlanInvariant
import IdlSchema.Proofs.Link.ResolvedTypes

/-!
# Checks without errors

Where types are whole, a literal that has no value has a problem, or it uses a constant that has no
value.  The problems of constants are reported too, so where no error is reported every constant has
its value by plain recursion, and every default has a value.
-/

namespace IdlSchema

open Diagnostics

namespace ConstantScope

variable {scope : ConstantScope} {values : Nat → Option ConstantValue}

theorem checkedType?_eq_some_iff {expected actual : TypeId} :
    scope.checkedType? expected = some actual ↔
      scope.graph.trueType expected = some actual ∧ actual ≠ .invalid := by
  rw [checkedType?, Option.filter_eq_some_iff, bne_iff_ne]

theorem elementType?_eq_some_iff {actual element : TypeId} :
    scope.elementType? actual = some element ↔
      scope.graph.shape? actual = some (.list element) ∨
        scope.graph.shape? actual = some (.set element) := by
  rw [elementType?]
  split
  · rename_i at_shape
    simp [at_shape]
  · rename_i at_shape
    simp [at_shape]
  · rename_i no_list no_set
    exact iff_of_false nofun (not_or.mpr ⟨no_list _, no_set _⟩)

theorem entryTypes?_eq_some_iff {actual key value : TypeId} :
    scope.entryTypes? actual = some (key, value) ↔
      scope.graph.shape? actual = some (.map key value) := by
  rw [entryTypes?]
  split
  · rename_i at_shape
    simp [at_shape]
  · rename_i no_map
    exact iff_of_false nofun (no_map _ _)

theorem parameter_of_elementType? {actual element : TypeId}
    (found : scope.elementType? actual = some element) : scope.graph.Parameter element actual := by
  rcases elementType?_eq_some_iff.mp found with at_shape | at_shape
  · exact ⟨_, at_shape, List.mem_singleton_self _⟩
  · exact ⟨_, at_shape, List.mem_singleton_self _⟩

theorem parameter_of_entryTypes? {actual key value : TypeId}
    (found : scope.entryTypes? actual = some (key, value)) :
    scope.graph.Parameter key actual ∧ scope.graph.Parameter value actual := by
  have at_shape := entryTypes?_eq_some_iff.mp found
  exact ⟨⟨_, at_shape, List.mem_cons_self⟩,
    ⟨_, at_shape, List.mem_cons_of_mem _ (List.mem_singleton_self _)⟩⟩

theorem mem_of_structAt? {actual : TypeId} {struct : StructType Literal}
    (found : scope.structAt? actual = some struct) :
    struct ∈ scope.model.structs ∧ struct.id = actual := by
  rw [structAt?] at found
  split at found
  · cases found
  · rw [Model.struct?] at found
    have same := List.find?_some found
    exact ⟨List.mem_of_find?_eq_some found, eq_of_beq same⟩

variable (resolves : scope.model.Resolves scope.graph)

include resolves

theorem mentions_checkedType? {expected actual : TypeId}
    (mentioned : scope.model.Mentions scope.graph expected)
    (found : scope.checkedType? expected = some actual) :
    scope.model.Mentions scope.graph actual :=
  resolves.mentions_trueType mentioned (checkedType?_eq_some_iff.mp found).1

theorem checkedType?_ne_none {expected : TypeId}
    (mentioned : scope.model.Mentions scope.graph expected) :
    scope.checkedType? expected ≠ none := by
  obtain ⟨actual, found⟩ := resolves.behind expected
  have valid := resolves.ne_invalid (resolves.mentions_trueType mentioned found)
  rw [Option.ne_none_iff_exists']
  exact ⟨actual, checkedType?_eq_some_iff.mpr ⟨found, valid⟩⟩

/-- Where types are whole, no literal fails without an error. -/
theorem vocal_of_mentions (file : FileId) {expected : TypeId}
    (mentioned : scope.model.Mentions scope.graph expected) (literal : Literal) :
    (scope.plan file expected literal).Vocal (· < scope.model.constants.length) := by
  refine vocal_plan (scope.model.Mentions scope.graph)
    (fun expected mentioned => checkedType?_ne_none resolves mentioned)
    (fun expected actual element mentioned behind found => ?_)
    (fun expected actual key value mentioned behind found => ?_)
    (fun expected actual struct mentioned behind found field member => ?_) file mentioned literal
  · exact Model.Resolves.mentions_parameter (parameter_of_elementType? found)
      (mentions_checkedType? resolves mentioned behind)
  · have inner := mentions_checkedType? resolves mentioned behind
    exact (parameter_of_entryTypes? found).imp
      (fun below => Model.Resolves.mentions_parameter below inner)
      (fun below => Model.Resolves.mentions_parameter below inner)
  · exact Model.mentions_of_mem (Model.mem_uses_of_field (mem_of_structAt? found).1 member)

theorem allVocal_of_resolves : scope.AllVocal := by
  intro index inside
  have listed : (.constant, scope.model.constants[index].type) ∈ scope.model.uses :=
    Model.mem_uses_iff.mpr (.inr (.inr (.inr
      ⟨_, List.getElem_mem inside, List.mem_singleton_self _⟩)))
  rw [planAt, List.getElem?_eq_getElem inside]
  exact vocal_of_mentions resolves _ (Model.mentions_of_mem listed) _

omit resolves

/-- A constant with a value is used without an error only at its own type. -/
theorem sameType_of_clear {use : Reference} {constant : Constant Literal} {stack : List Nat}
    (found : scope.model.constants[use.index]? = some constant) (valued : (values use.index).isSome)
    (clear : Clear (scope.useProblems stack values use)) :
    scope.graph.sameType constant.type use.expected = true := by
  obtain ⟨value, at_use⟩ := Option.isSome_iff_exists.mp valued
  by_contra differ
  refine absurd clear ?_
  rw [useProblems]
  split
  · exact not_clear_of_mem (List.mem_singleton_self _) rfl
  · rw [misuse.eq_def, at_use, found]
    dsimp only
    rw [if_neg differ]
    exact not_clear_of_mem (List.mem_singleton_self _) rfl

/-- To use a constant that is not in progress is no error at its own type. -/
theorem clear_of_sameType {use : Reference} {constant : Constant Literal} {stack : List Nat}
    (found : scope.model.constants[use.index]? = some constant) (idle : use.index ∉ stack)
    (same : scope.graph.sameType constant.type use.expected = true) :
    Clear (scope.useProblems stack values use) := by
  rw [useProblems, if_neg idle, misuse.eq_def, found]
  cases values use.index with
  | none => exact clear_nil
  | some value =>
      dsimp only
      rw [if_pos same]
      exact clear_nil

/-- A plan without value has an error, where all constants that it may use have values. -/
theorem not_clear_problems {α : Type} {plan : Plan α}
    (vocal : plan.Vocal (· < scope.model.constants.length))
    (valued : ∀ index < scope.model.constants.length, (values index).isSome)
    (absent : plan.evaluate (scope.answer values) = none) :
    ¬ Clear (plan.problems (scope.useProblems [] values)) := by
  induction plan with
  | value a => cases absent
  | silent => exact absurd vocal id
  | refuse problem => exact not_clear_of_mem (List.mem_singleton_self _) vocal
  | refer reference =>
      obtain ⟨value, found⟩ := Option.isSome_iff_exists.mp (valued reference.index vocal)
      rw [Plan.evaluate, answer, found] at absent
      rw [Plan.problems, useProblems, if_neg List.not_mem_nil, found]
      exact not_clear_misuse vocal absent
  | both combine first second induction induction' =>
      rw [Plan.problems, clear_append, not_and_or]
      cases at_first : first.evaluate (scope.answer values) with
      | none => exact .inl (induction vocal.1 at_first)
      | some b =>
          rw [Plan.evaluate, at_first, Option.bind_some, Option.map_eq_none_iff] at absent
          exact .inr (induction' vocal.2 absent)

include resolves

/-- A literal without errors has a value, where all constants have. -/
theorem isSome_elaborate (file : FileId) {expected : TypeId}
    (mentioned : scope.model.Mentions scope.graph expected) {literal : Literal}
    (valued : ∀ index < scope.model.constants.length, (values index).isSome)
    (clear : Clear ((scope.plan file expected literal).problems (scope.useProblems [] values))) :
    (scope.elaborate values file expected literal).isSome := by
  rw [elaborate_eq, Option.isSome_iff_ne_none]
  intro absent
  exact not_clear_problems (vocal_of_mentions resolves file mentioned literal) valued absent clear

/-- A field keeps its default if that has no error, where all constants have values. -/
theorem isSome_default?_elaborateField (file : FileId) {field : Field Literal}
    (mentioned : scope.model.Mentions scope.graph field.type)
    (valued : ∀ index < scope.model.constants.length, (values index).isSome)
    (clear : Clear (scope.fieldProblems values file field)) :
    (scope.elaborateField values file field).default?.isSome = field.default?.isSome := by
  rw [elaborateField]
  rw [fieldProblems] at clear
  cases default : field.default? with
  | none => rfl
  | some literal =>
      rw [default] at clear
      exact isSome_elaborate resolves file mentioned valued clear

/-- Checking a model without errors gives all constants and defaults their values. -/
theorem exists_values_of_clear
    (clear : Clear (scope.checkModel scope.initialState).2.reported) :
    ∃ values : Nat → Option ConstantValue,
      (scope.checkModel scope.initialState).1 = scope.elaborateModel values ∧
      (∀ index < scope.model.constants.length, (values index).isSome) ∧
      (∀ index, scope.Correct index (values index)) ∧
      Clear (scope.defaultProblems values) := by
  have yields := yields_checkModel (sound_initialState scope)
  have sound := yields.progresses.sound
  obtain ⟨log, _, accounted⟩ := yields.progresses.accounted
  have done (index : Nat) (inside : index < scope.model.constants.length) :=
    done_checkModel (sound_initialState scope) inside
  refine ⟨_, yields.value _ (.refl _), fun index inside => ?_, sound.correct_value? done,
    fun problem member => ?_⟩
  · obtain ⟨value?, found⟩ := done index inside
    rw [CheckState.value?_of_done found, Option.isSome_iff_ne_none]
    rintro rfl
    exact sound.loud (allVocal_of_resolves resolves) index inside found clear
  · refine clear problem (accounted.mem_iff.mpr ?_)
    exact List.mem_append_left _ (List.mem_append_right _ member)

end ConstantScope
end IdlSchema
