import Mathlib.Tactic
import IdlSchema.Link.Constants

/-!
# What checking a literal comes to

Which constants a literal refers to and which problems it has of its own depend on the literal and
the expected type alone, not on what is known of constants.  All this is its plan.  To check the
literal is to carry out the plan from left to right, and its value is the value of the plan given
the values of the constants.
-/

namespace IdlSchema

/-- The use of a constant in a literal. -/
structure Reference where
  expected : TypeId
  location : Location
  name : String
  index : Nat

/-- How a value is put together: what is settled, what is refused, and which constants are used. -/
inductive Plan : Type → Type 1 where
  | value {α : Type} (a : α) : Plan α
  | silent {α : Type} : Plan α
  | refuse {α : Type} (problem : Diagnostic) : Plan α
  | refer (reference : Reference) : Plan ConstantValue
  | both {α β γ : Type} (combine : β → γ → α) (first : Plan β) (second : Plan γ) : Plan α

namespace Plan

variable {α β γ : Type}

/-- A plan with a function applied to its value. -/
def map (change : β → α) (plan : Plan β) : Plan α :=
  both (fun b () => change b) plan (value ())

/-- The plan of what is settled. -/
def ofExcept : Except Diagnostic α → Plan α
  | .ok a => value a
  | .error problem => refuse problem

/-- Carries out a plan. -/
def run (scope : ConstantScope) (demand : Nat → Checking (Option ConstantValue)) :
    {α : Type} → Plan α → Checking (Option α)
  | _, value a => return some a
  | _, silent => return none
  | _, refuse problem => Checking.refuse problem
  | _, refer reference =>
      scope.inline demand reference.expected reference.location reference.name reference.index
  | _, both combine first second => do
      let first? ← first.run scope demand
      let second? ← second.run scope demand
      return first?.bind fun b => second?.map (combine b)

/-- The value of a plan, given the values of uses of constants. -/
def evaluate (answer : Reference → Option ConstantValue) : {α : Type} → Plan α → Option α
  | _, value a => some a
  | _, silent => none
  | _, refuse _ => none
  | _, refer reference => answer reference
  | _, both combine first second =>
      (first.evaluate answer).bind fun b => (second.evaluate answer).map (combine b)

/-- The uses of constants in a plan, from left to right. -/
def references : {α : Type} → Plan α → List Reference
  | _, value _ => []
  | _, silent => []
  | _, refuse _ => []
  | _, refer reference => [reference]
  | _, both _ first second => first.references ++ second.references

/-- The problems of a plan, from left to right, given those of uses of constants. -/
def problems (atUse : Reference → Diagnostics) : {α : Type} → Plan α → Diagnostics
  | _, value _ => []
  | _, silent => []
  | _, refuse problem => [problem]
  | _, refer reference => atUse reference
  | _, both _ first second => first.problems atUse ++ second.problems atUse

/-- A plan never fails without an error, and uses only constants of some sort. -/
def Vocal (usable : Nat → Prop) : {α : Type} → Plan α → Prop
  | _, value _ => True
  | _, silent => False
  | _, refuse problem => problem.isError = true
  | _, refer reference => usable reference.index
  | _, both _ first second => first.Vocal usable ∧ second.Vocal usable

theorem evaluate_congr {answer answer' : Reference → Option ConstantValue} {plan : Plan α}
    (same : ∀ reference ∈ plan.references, answer reference = answer' reference) :
    plan.evaluate answer = plan.evaluate answer' := by
  induction plan with
  | value a => rfl
  | silent => rfl
  | refuse problem => rfl
  | refer reference => exact same reference (List.mem_singleton_self reference)
  | both combine first second induction induction' =>
      rw [evaluate, evaluate, induction fun r member => same r (List.mem_append_left _ member),
        induction' fun r member => same r (List.mem_append_right _ member)]

theorem problems_congr {atUse atUse' : Reference → Diagnostics} {plan : Plan α}
    (same : ∀ reference ∈ plan.references, atUse reference = atUse' reference) :
    plan.problems atUse = plan.problems atUse' := by
  induction plan with
  | value a => rfl
  | silent => rfl
  | refuse problem => rfl
  | refer reference => exact same reference (List.mem_singleton_self reference)
  | both combine first second induction induction' =>
      rw [problems, problems, induction fun r member => same r (List.mem_append_left _ member),
        induction' fun r member => same r (List.mem_append_right _ member)]

theorem evaluate_both_eq_some {answer : Reference → Option ConstantValue} {combine : β → γ → α}
    {first : Plan β} {second : Plan γ} {a : α}
    (found : (both combine first second).evaluate answer = some a) :
    ∃ b c, first.evaluate answer = some b ∧ second.evaluate answer = some c ∧ combine b c = a := by
  obtain ⟨b, at_first, found'⟩ := Option.bind_eq_some_iff.mp found
  obtain ⟨c, at_second, same⟩ := Option.map_eq_some_iff.mp found'
  exact ⟨b, c, at_first, at_second, same⟩

theorem evaluate_map_eq_some {answer : Reference → Option ConstantValue} {change : β → α}
    {plan : Plan β} {a : α} (found : (plan.map change).evaluate answer = some a) :
    ∃ b, plan.evaluate answer = some b ∧ change b = a := by
  obtain ⟨b, _, at_plan, _, same⟩ := evaluate_both_eq_some found
  exact ⟨b, at_plan, same⟩

@[simp]
theorem references_map (change : β → α) (plan : Plan β) :
    (plan.map change).references = plan.references :=
  List.append_nil _

/-- Where a use has no value, the plan has none. -/
theorem evaluate_eq_none {answer : Reference → Option ConstantValue} {plan : Plan α}
    {reference : Reference} (member : reference ∈ plan.references)
    (absent : answer reference = none) : plan.evaluate answer = none := by
  induction plan with
  | value a => exact absurd member List.not_mem_nil
  | silent => rfl
  | refuse problem => rfl
  | refer other =>
      rw [List.mem_singleton.mp member] at absent
      exact absent
  | both combine first second induction induction' =>
      rw [evaluate]
      rcases List.mem_append.mp member with left | right
      · rw [induction left, Option.bind_none]
      · rw [induction' right]
        cases first.evaluate answer <;> rfl

end Plan

namespace ConstantScope

variable (scope : ConstantScope) (file : FileId)

mutual

/-- The plan of a literal in a file at the type that is expected there. -/
def plan (expected : TypeId) (literal : Literal) : Plan ConstantValue :=
  match scope.checkedType? expected with
  | none => .silent
  | some actual =>
      match literal with
      | .identifier location name =>
          match scope.wordValue? actual name with
          | some value => .value value
          | none =>
              match scope.lookup file name with
              | some index => .refer ⟨expected, location, name, index⟩
              | none => .refuse (scope.unknownIdentifier expected actual location name)
      | .list location items =>
          match scope.elementType? actual with
          | some element => (planItems element items).map .list
          | none => .refuse (scope.mismatch expected (.list location items))
      | .map location entries =>
          match scope.entryTypes? actual, scope.structAt? actual with
          | some (key, value), _ => (planEntries key value entries).map .map
          | none, some struct => (planFields expected struct entries).map .struct
          | none, none => .refuse (scope.mismatch expected (.map location entries))
      | .integer location i => .ofExcept (scope.scalarAt expected actual (.integer location i))
      | .double location x => .ofExcept (scope.scalarAt expected actual (.double location x))
      | .string location text => .ofExcept (scope.scalarAt expected actual (.string location text))

/-- The plan of the items of a list. -/
def planItems (element : TypeId) : List Literal → Plan (List ConstantValue)
  | [] => .value []
  | item :: items => .both (· :: ·) (plan element item) (planItems element items)

/-- The plan of the entries of a map. -/
def planEntries (keyType valueType : TypeId) :
    List (Literal × Literal) → Plan (List (ConstantValue × ConstantValue))
  | [] => .value []
  | (key, value) :: entries =>
      .both (· :: ·) (.both Prod.mk (plan keyType key) (plan valueType value))
        (planEntries keyType valueType entries)

/-- The plan of the entries of a map as fields of a struct. -/
def planFields (expected : TypeId) (struct : StructType Literal) :
    List (Literal × Literal) → Plan (List (String × ConstantValue))
  | [] => .value []
  | (key, value) :: entries =>
      let field :=
        match scope.fieldAt expected struct key with
        | .ok field => (plan field.type value).map (field.name, ·)
        | .error problem => .refuse problem
      .both (· :: ·) field (planFields expected struct entries)

end

variable {scope file} {demand : Nat → Checking (Option ConstantValue)}

private theorem run_map {α β : Type} (change : β → α) (plan : Plan β) :
    (plan.map change).run scope demand = do
      let value? ← plan.run scope demand
      return value?.map change := by
  rw [Plan.map, Plan.run]
  congr 1
  funext value?
  cases value? <;> rfl

private theorem run_ofExcept (result : Except Diagnostic ConstantValue) :
    (Plan.ofExcept result).run scope demand = settle result := by
  cases result <;> rfl

private theorem cons?_eq {α : Type} (head? : Option α) (tail? : Option (List α)) :
    cons? head? tail? = head?.bind fun head => tail?.map (head :: ·) :=
  rfl

mutual

/-- To check a literal is to carry out its plan. -/
theorem check_eq_run (expected : TypeId) (literal : Literal) :
    scope.check demand file expected literal =
      (scope.plan file expected literal).run scope demand := by
  rw [check.eq_def, plan.eq_def]
  cases scope.checkedType? expected with
  | none => rfl
  | some actual =>
      cases literal with
      | integer location i => exact (run_ofExcept _).symm
      | double location x => exact (run_ofExcept _).symm
      | string location text => exact (run_ofExcept _).symm
      | identifier location name =>
          dsimp only [identifierAt]
          cases scope.wordValue? actual name with
          | some value => rfl
          | none => cases scope.lookup file name <;> rfl
      | list location items =>
          dsimp only
          cases scope.elementType? actual with
          | none => rfl
          | some element => simp only [run_map, checkItems_eq_run element items]
      | map location entries =>
          dsimp only
          cases scope.entryTypes? actual with
          | some types => simp only [run_map, checkEntries_eq_run types.1 types.2 entries]
          | none =>
              cases scope.structAt? actual with
              | none => rfl
              | some struct => simp only [run_map, checkFields_eq_run expected struct entries]

theorem checkItems_eq_run (element : TypeId) (items : List Literal) :
    scope.checkItems demand file element items =
      (scope.planItems file element items).run scope demand := by
  cases items with
  | nil => rw [checkItems.eq_def, planItems.eq_def]; rfl
  | cons item items =>
      rw [checkItems.eq_def, planItems.eq_def]
      simp only [Plan.run, check_eq_run element item, checkItems_eq_run element items, cons?_eq]

theorem checkEntries_eq_run (keyType valueType : TypeId) (entries : List (Literal × Literal)) :
    scope.checkEntries demand file keyType valueType entries =
      (scope.planEntries file keyType valueType entries).run scope demand := by
  match entries with
  | [] => rw [checkEntries.eq_def, planEntries.eq_def]; rfl
  | (key, value) :: entries =>
      rw [checkEntries.eq_def, planEntries.eq_def]
      simp only [Plan.run, check_eq_run keyType key, check_eq_run valueType value,
        checkEntries_eq_run keyType valueType entries, cons?_eq, bind_assoc, pure_bind]

theorem checkFields_eq_run (expected : TypeId) (struct : StructType Literal)
    (entries : List (Literal × Literal)) :
    scope.checkFields demand file expected struct entries =
      (scope.planFields file expected struct entries).run scope demand := by
  match entries with
  | [] => rw [checkFields.eq_def, planFields.eq_def]; rfl
  | (key, value) :: entries =>
      rw [checkFields.eq_def, planFields.eq_def]
      dsimp only
      cases scope.fieldAt expected struct key with
      | ok field =>
          simp only [Plan.run, run_map, check_eq_run field.type value,
            checkFields_eq_run expected struct entries, cons?_eq, bind_assoc]
      | error problem =>
          simp only [Plan.run, checkFields_eq_run expected struct entries, cons?_eq]

end

end ConstantScope
end IdlSchema
