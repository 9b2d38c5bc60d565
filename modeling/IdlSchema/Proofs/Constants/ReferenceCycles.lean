import IdlSchema.Proofs.Constants.Demands
import IdlSchema.Proofs.Link.ProblemKinds

/-!
# Cycles of references

A constant in progress leads to whatever is checked meanwhile, so to come upon it again is to close
a cycle.  A use that closes none is of a constant that is done before.  A walk along such uses
alone never comes back, so every cycle is closed somewhere.
-/

namespace IdlSchema

open Diagnostics Relation

namespace Literal

mutual

/-- The identifiers in a literal with their positions, from left to right. -/
def identifiers : Literal → List (Location × String)
  | integer _ _ => []
  | double _ _ => []
  | string _ _ => []
  | identifier location name => [(location, name)]
  | list _ items => itemIdentifiers items
  | map _ entries => entryIdentifiers entries

/-- The identifiers in the items of a list. -/
def itemIdentifiers : List Literal → List (Location × String)
  | [] => []
  | item :: items => item.identifiers ++ itemIdentifiers items

/-- The identifiers in the entries of a map. -/
def entryIdentifiers : List (Literal × Literal) → List (Location × String)
  | [] => []
  | (key, value) :: entries =>
      (key.identifiers ++ value.identifiers) ++ entryIdentifiers entries

end

end Literal

/-- The identifier behind the use of a constant. -/
def Reference.identifier (reference : Reference) : Location × String :=
  (reference.location, reference.name)

/-- The identifiers behind the uses of constants in a plan. -/
def Plan.identifiers {α : Type} (plan : Plan α) : List (Location × String) :=
  plan.references.map Reference.identifier

namespace ConstantScope

/-- An identifier in the literal of a constant, by its place among those that use constants. -/
structure Occurrence where
  constant : Nat
  position : Nat
  reference : Reference

variable (scope : ConstantScope)

/-- The uses of constants in the literal of the constant at a place. -/
def occurrencesAt (index : Nat) : List Occurrence :=
  (scope.planAt index).references.zipIdx.map fun entry => ⟨index, entry.2, entry.1⟩

/-- The uses of constants in the literals of constants. -/
def occurrences : List Occurrence :=
  (List.range scope.model.constants.length).flatMap scope.occurrencesAt

/-- Uses of constants that lead from one constant to another, each to the place of the next. -/
def Walk : Nat → List Occurrence → Nat → Prop
  | start, [], finish => start = finish
  | start, first :: rest, finish =>
      first ∈ scope.occurrences ∧ first.constant = start ∧ Walk first.reference.index rest finish

/-- The uses of what is in progress when each constant is checked. -/
def closing (stack : Nat → List Nat) : List Occurrence :=
  scope.occurrences.filter fun occurrence => occurrence.reference.index ∈ stack occurrence.constant

variable {scope} {stack : Nat → List Nat}

/-! ## Uses of constants -/

mutual

/-- The uses of constants in a plan are at identifiers of the literal, each at its own. -/
theorem identifiers_plan (file : FileId) (expected : TypeId) (literal : Literal) :
    (scope.plan file expected literal).identifiers.Sublist literal.identifiers := by
  rw [plan.eq_def, Literal.identifiers.eq_def]
  cases scope.checkedType? expected with
  | none => exact List.nil_sublist _
  | some actual =>
      have scalar (literal : Literal) :
          (Plan.ofExcept (scope.scalarAt expected actual literal)).identifiers = [] := by
        cases scope.scalarAt expected actual literal <;> rfl
      cases literal with
      | integer location i => exact (scalar _).symm ▸ List.nil_sublist _
      | double location x => exact (scalar _).symm ▸ List.nil_sublist _
      | string location text => exact (scalar _).symm ▸ List.nil_sublist _
      | identifier location name =>
          dsimp only
          cases scope.wordValue? actual name with
          | some value => exact List.nil_sublist _
          | none =>
              cases scope.lookup file name with
              | some index => exact List.Sublist.refl _
              | none => exact List.nil_sublist _
      | list location items =>
          dsimp only
          cases scope.elementType? actual with
          | none => exact List.nil_sublist _
          | some element =>
              rw [Plan.identifiers, Plan.references_map]
              exact identifiers_planItems file element items
      | map location entries =>
          dsimp only
          cases scope.entryTypes? actual with
          | some types =>
              rw [Plan.identifiers, Plan.references_map]
              exact identifiers_planEntries file types.1 types.2 entries
          | none =>
              cases scope.structAt? actual with
              | none => exact List.nil_sublist _
              | some struct =>
                  rw [Plan.identifiers, Plan.references_map]
                  exact identifiers_planFields file expected struct entries

theorem identifiers_planItems (file : FileId) (element : TypeId) (items : List Literal) :
    (scope.planItems file element items).identifiers.Sublist (Literal.itemIdentifiers items) := by
  cases items with
  | nil =>
      rw [planItems.eq_def]
      exact List.nil_sublist _
  | cons item items =>
      rw [planItems.eq_def, Literal.itemIdentifiers.eq_def, Plan.identifiers, Plan.references,
        List.map_append]
      exact (identifiers_plan file element item).append (identifiers_planItems file element items)

theorem identifiers_planEntries (file : FileId) (keyType valueType : TypeId)
    (entries : List (Literal × Literal)) :
    (scope.planEntries file keyType valueType entries).identifiers.Sublist
      (Literal.entryIdentifiers entries) := by
  match entries with
  | [] =>
      rw [planEntries.eq_def]
      exact List.nil_sublist _
  | (key, value) :: entries =>
      rw [planEntries.eq_def, Literal.entryIdentifiers.eq_def, Plan.identifiers, Plan.references,
        Plan.references, List.map_append, List.map_append]
      exact ((identifiers_plan file keyType key).append (identifiers_plan file valueType value)).append
        (identifiers_planEntries file keyType valueType entries)

theorem identifiers_planFields (file : FileId) (expected : TypeId) (struct : StructType Literal)
    (entries : List (Literal × Literal)) :
    (scope.planFields file expected struct entries).identifiers.Sublist
      (Literal.entryIdentifiers entries) := by
  match entries with
  | [] =>
      rw [planFields.eq_def]
      exact List.nil_sublist _
  | (key, value) :: entries =>
      rw [planFields.eq_def, Literal.entryIdentifiers.eq_def, Plan.identifiers, Plan.references,
        List.map_append]
      refine List.Sublist.append ?_ (identifiers_planFields file expected struct entries)
      cases scope.fieldAt expected struct key with
      | error problem => exact List.nil_sublist _
      | ok field =>
          dsimp only
          rw [Plan.references_map]
          exact (identifiers_plan file field.type value).trans (List.sublist_append_right _ _)

end

theorem lt_length_of_mem_references {index : Nat} {reference : Reference}
    (used : reference ∈ (scope.planAt index).references) :
    reference.index < scope.model.constants.length := by
  have invariant : scope.PlanInvariant (fun _ => True) fun plan =>
      ∀ reference ∈ plan.references, reference.index < scope.model.constants.length :=
    { value := fun _ => List.forall_mem_nil _
      silent := fun _ _ => List.forall_mem_nil _
      refuse := fun _ => List.forall_mem_nil _
      refer := fun _ found => List.forall_mem_singleton.mpr (lt_length_of_lookup found)
      both := fun first second => List.forall_mem_append.mpr ⟨first, second⟩
      element := fun _ _ _ => trivial
      entry := fun _ _ _ => ⟨trivial, trivial⟩
      field := fun _ _ _ _ => trivial }
  rw [planAt] at used
  split at used
  · exact invariant.plan _ trivial _ reference used
  · exact absurd used List.not_mem_nil

theorem lt_length_of_reference_mem {index : Nat} {reference : Reference}
    (used : reference ∈ (scope.planAt index).references) :
    index < scope.model.constants.length := by
  by_contra outside
  rw [planAt_of_none (List.getElem?_eq_none (Nat.le_of_not_lt outside))] at used
  exact List.not_mem_nil used

theorem mem_occurrencesAt {index : Nat} {occurrence : Occurrence} :
    occurrence ∈ scope.occurrencesAt index ↔ occurrence.constant = index ∧
      (scope.planAt index).references[occurrence.position]? = some occurrence.reference := by
  rw [occurrencesAt, List.mem_map]
  constructor
  · rintro ⟨entry, member, rfl⟩
    exact ⟨rfl, List.mem_zipIdx_iff_getElem?.mp member⟩
  · rintro ⟨rfl, found⟩
    exact ⟨(occurrence.reference, occurrence.position), List.mem_zipIdx_iff_getElem?.mpr found, rfl⟩

theorem mem_occurrences {occurrence : Occurrence} : occurrence ∈ scope.occurrences ↔
    (scope.planAt occurrence.constant).references[occurrence.position]? =
      some occurrence.reference := by
  rw [occurrences, List.mem_flatMap]
  constructor
  · rintro ⟨index, _, member⟩
    obtain ⟨rfl, found⟩ := mem_occurrencesAt.mp member
    exact found
  · intro found
    exact ⟨occurrence.constant,
      List.mem_range.mpr (lt_length_of_reference_mem (List.mem_of_getElem? found)),
      mem_occurrencesAt.mpr ⟨rfl, found⟩⟩

theorem nodup_occurrences (scope : ConstantScope) : scope.occurrences.Nodup := by
  refine List.nodup_flatMap.mpr ⟨fun index _ => ?_, ?_⟩
  · have positions : ((scope.occurrencesAt index).map (·.position)).Nodup := by
      rw [occurrencesAt, List.map_map]
      exact (List.zipIdx_map_snd 0 _).symm ▸ List.nodup_range'
    exact positions.of_map
  · refine List.nodup_range.imp fun {a b} differ occurrence left right => differ ?_
    exact (mem_occurrencesAt.mp left).1.symm.trans (mem_occurrencesAt.mp right).1

/-! ## Walks -/

/-- Constants that refer to each other in turn have uses that lead from the first to the last. -/
theorem exists_walk {a b : Nat} (path : ReflTransGen scope.Refers a b) :
    ∃ walk, scope.Walk a walk b := by
  induction path using ReflTransGen.head_induction_on with
  | refl => exact ⟨[], rfl⟩
  | head refers _ induction =>
      obtain ⟨reference, member, rfl⟩ := refers
      obtain ⟨walk, leads⟩ := induction
      obtain ⟨position, found⟩ := List.getElem?_of_mem member
      exact ⟨⟨_, position, reference⟩ :: walk, mem_occurrences.mpr found, rfl, leads⟩

/-- What is used while it is in progress is used on a cycle. -/
theorem Stacked.exists_walk_of_closing (stacked : scope.Stacked stack) {occurrence : Occurrence}
    (closes : occurrence ∈ scope.closing stack) :
    ∃ walk, scope.Walk occurrence.constant (occurrence :: walk) occurrence.constant := by
  obtain ⟨member, busy⟩ := List.mem_filter.mp closes
  have inside := lt_length_of_reference_mem (List.mem_of_getElem? (mem_occurrences.mp member))
  obtain ⟨walk, leads⟩ :=
    exists_walk ((stacked.inProgress _ inside).2 _ (of_decide_eq_true busy))
  exact ⟨walk, member, rfl, leads⟩

/-- On every closed walk something is used while it is in progress. -/
theorem Stacked.exists_closing (stacked : scope.Stacked stack) {index : Nat}
    {walk : List Occurrence} (proper : walk ≠ []) (closed : scope.Walk index walk index) :
    ∃ occurrence ∈ walk, occurrence ∈ scope.closing stack := by
  obtain ⟨rank, ranked⟩ := stacked.ranked
  -- Without such a use, each step of a walk leads to a constant that is done before.
  have descends {walk : List Occurrence} {start finish : Nat} (leads : scope.Walk start walk finish)
      (unclosed : ∀ occurrence ∈ walk, occurrence ∉ scope.closing stack) :
      rank finish + walk.length ≤ rank start := by
    induction walk generalizing start with
    | nil => exact leads ▸ Nat.le_refl _
    | cons first rest induction =>
        obtain ⟨member, rfl, onward⟩ := leads
        obtain ⟨first_unclosed, rest_unclosed⟩ := List.forall_mem_cons.mp unclosed
        have used := List.mem_of_getElem? (mem_occurrences.mp member)
        have lower : rank first.reference.index < rank first.constant := by
          refine (ranked _ _ used (lt_length_of_mem_references used)).resolve_left fun busy => ?_
          exact first_unclosed (List.mem_filter.mpr ⟨member, decide_eq_true busy⟩)
        have further := induction onward rest_unclosed
        rw [List.length_cons]
        omega
  by_contra none_closes
  have back := descends closed fun occurrence member closes =>
    none_closes ⟨occurrence, member, closes⟩
  have steps := List.length_pos_iff.mpr proper
  omega

/-! ## Problems -/

/-- The cycles that are reported in a plan are closed by the uses of what is in progress. -/
theorem ofKind_problems_plan (busy : List Nat) (values : Nat → Option ConstantValue)
    (file : FileId) (expected : TypeId) (literal : Literal) :
    ofKind .cyclicConstant
        ((scope.plan file expected literal).problems (scope.useProblems busy values)) =
      ((scope.plan file expected literal).references.filter (·.index ∈ busy)).map cyclicUse := by
  have own : DiagnosticKind.cyclicConstant ∉ literalKinds := by decide
  have invariant : scope.PlanInvariant (fun _ => True) fun plan =>
      ofKind .cyclicConstant (plan.problems (scope.useProblems busy values)) =
        (plan.references.filter (·.index ∈ busy)).map cyclicUse :=
    { value := fun _ => rfl
      silent := fun _ _ => rfl
      refuse := fun known => (among_singleton known).ofKind_eq_nil own
      refer := fun {file reference} _ _ => by
        rw [Plan.problems, Plan.references, useProblems]
        by_cases closes : reference.index ∈ busy
        · have kept : [reference].filter (·.index ∈ busy) = [reference] := by simp [closes]
          rw [if_pos closes, kept]
          rfl
        · have dropped : [reference].filter (·.index ∈ busy) = [] := by simp [closes]
          rw [if_neg closes, dropped]
          exact (among_misuse reference _).ofKind_eq_nil own
      both := fun first second => by
        rw [Plan.problems, Plan.references, ofKind_append, List.filter_append, List.map_append,
          first, second]
      element := fun _ _ _ => trivial
      entry := fun _ _ _ => ⟨trivial, trivial⟩
      field := fun _ _ _ _ => trivial }
  exact invariant.plan file trivial literal

theorem ofKind_demandProblems (values : Nat → Option ConstantValue) (demand : Demand) :
    ofKind .cyclicConstant (scope.demandProblems values demand) = [] := by
  cases demand with
  | literal file expected literal =>
      rw [demandProblems, ofKind_problems_plan, List.filter_eq_nil_iff.mpr, List.map_nil]
      exact fun reference _ => of_decide_eq_false (by simp)
  | constant index => rfl

theorem ofKind_recordProblems (values : Nat → Option ConstantValue) (record : CheckRecord) :
    ofKind .cyclicConstant (scope.recordProblems values record) =
      ((scope.planAt record.index).references.filter (·.index ∈ record.stack)).map cyclicUse := by
  rw [recordProblems, planAt]
  split
  · exact ofKind_problems_plan ..
  · rfl

theorem map_reference_occurrencesAt (index : Nat) :
    (scope.occurrencesAt index).map (·.reference) = (scope.planAt index).references := by
  rw [occurrencesAt, List.map_map]
  exact List.zipIdx_map_fst 0 _

theorem map_cyclicUse_closing (scope : ConstantScope) (stack : Nat → List Nat) :
    ((scope.closing stack).map fun occurrence => cyclicUse occurrence.reference) =
      (List.range scope.model.constants.length).flatMap fun index =>
        ((scope.planAt index).references.filter (·.index ∈ stack index)).map cyclicUse := by
  rw [closing, occurrences, List.filter_flatMap, List.map_flatMap]
  refine List.flatMap_congr fun index _ => ?_
  have here : (scope.occurrencesAt index).filter (fun occurrence =>
        occurrence.reference.index ∈ stack occurrence.constant) =
      (scope.occurrencesAt index).filter
        ((fun reference => reference.index ∈ stack index) ∘ (·.reference)) :=
    List.filter_congr fun occurrence member => by
      rw [(mem_occurrencesAt.mp member).1]
      rfl
  rw [here, ← map_reference_occurrencesAt, List.filter_map, List.map_map]
  rfl

/--
What is reported of cycles of references in the end: each problem is at a use of a constant on a
cycle, no two are at the same use, and every cycle has such a use.
-/
structure BlamesUses (scope : ConstantScope) (reported : Diagnostics) : Prop where
  blamed : ∃ closing : List Occurrence, closing.Nodup ∧
    (reported.ofKind .cyclicConstant).Perm
      (closing.map fun occurrence => cyclicUse occurrence.reference) ∧
    (∀ occurrence ∈ closing, ∃ walk,
      scope.Walk occurrence.constant (occurrence :: walk) occurrence.constant) ∧
    ∀ index walk, walk ≠ [] → scope.Walk index walk index →
      ∃ occurrence ∈ walk, occurrence ∈ closing
  identifiers : ∀ constant ∈ scope.model.constants,
    (scope.plan constant.file constant.type constant.value).identifiers.Sublist
      constant.value.identifiers

theorem blamesUses_settled (scope : ConstantScope) (demands : List Demand) :
    scope.BlamesUses (scope.settled demands).reported := by
  obtain ⟨stack, stacked, reported⟩ := stacked_settled scope demands
  refine ⟨⟨scope.closing stack, (nodup_occurrences scope).filter _, ?_, ?_, ?_⟩, ?_⟩
  · refine (ofKind_perm reported).trans (.of_eq ?_)
    rw [ofKind_append, ofKind_flatMap, ofKind_flatMap, map_cyclicUse_closing]
    rw [List.flatMap_eq_nil_iff.mpr fun demand _ => ofKind_demandProblems _ demand, List.nil_append]
    exact List.flatMap_congr fun index _ => ofKind_recordProblems ..
  · exact fun occurrence closes => stacked.exists_walk_of_closing closes
  · exact fun index walk proper closed => stacked.exists_closing proper closed
  · exact fun constant _ => identifiers_plan ..

end ConstantScope

/-! ## What linking reports -/

namespace FileTable

variable (files : FileTable) (order : List FileId) (warnDeprecated : Bool)

theorem ofKind_cyclicConstant_link :
    (files.link order warnDeprecated).reported.ofKind .cyclicConstant =
      (files.checked order warnDeprecated).2.reported.ofKind .cyclicConstant := by
  rw [link_eq, ofKind_append, ofKind_append, ofKind_append,
    (among_declared files order).ofKind_eq_nil (by decide),
    ((files.typeScope order warnDeprecated).among_typeProblems _).ofKind_eq_nil (by decide),
    (TypedefType.among_cycleProblems _ _).ofKind_eq_nil (by decide)]
  rfl

/--
Linking constants comes to an end, with all constants done, and reports cycles of references where
they are closed.
-/
structure FindsReferenceCycles (scope : ConstantScope) (checked : CheckState) (linked : Linked) :
    Prop where
  ends : scope.Serves
    (scope.modelDemands ++ (List.range scope.model.constants.length).map .constant)
    scope.initialState checked
  done : ∀ index < scope.model.constants.length, ∃ value?, checked.known index = .done value?
  blames : scope.BlamesUses linked.reported

/-- Cycles of references between constants are found, and nothing else is taken for one. -/
theorem findsReferenceCycles :
    FindsReferenceCycles (files.constantScope order warnDeprecated)
      (files.checked order warnDeprecated).2 (files.link order warnDeprecated) := by
  have blames := ConstantScope.blamesUses_settled (files.constantScope order warnDeprecated)
    (files.constantScope order warnDeprecated).modelDemands
  rw [← ConstantScope.state_checkModel] at blames
  refine ⟨ConstantScope.serves_checkModel _, fun index inside => ?_, ?_, blames.identifiers⟩
  · exact ConstantScope.done_checkModel (ConstantScope.sound_initialState _) inside
  · rw [ofKind_cyclicConstant_link]
    exact blames.blamed

end FileTable
end IdlSchema
