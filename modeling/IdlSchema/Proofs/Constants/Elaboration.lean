import Mathlib.Logic.Relation
import IdlSchema.Proofs.Constants.Plan

/-!
# Steps of checking, and values without a memo

What is known of constants is read and changed in a few places only: where a plan refers to a
constant, and where the value of a constant is asked for.

A constant refers to those whose values its literal uses.  Its value is that of its literal at its
own type and in its own file, given the values of the constants that it refers to, each found in the
same way.  This settles the value of a constant from which no cycle of references is reachable.
-/

namespace IdlSchema
namespace CheckState

/-- What is known of a constant; what is no constant has no value. -/
def known (state : CheckState) (index : Nat) : ConstantState :=
  state.constants.getD index (.done none)

/-- The value of a constant, as far as it is known. -/
def value? (state : CheckState) (index : Nat) : Option ConstantValue :=
  match state.known index with
  | .done value? => value?
  | _ => none

/-- The state with something else known of a constant. -/
def set (state : CheckState) (index : Nat) (constant : ConstantState) : CheckState :=
  { state with constants := state.constants.set index constant }

/-- The state with more problems. -/
def reportAll (state : CheckState) (problems : Diagnostics) : CheckState :=
  { state with reported := state.reported ++ problems }

variable {state : CheckState} {index other : Nat} {constant : ConstantState}

theorem value?_of_done {value? : Option ConstantValue} (found : state.known index = .done value?) :
    state.value? index = value? := by
  rw [CheckState.value?, found]

theorem known_of_le (outside : state.constants.length ≤ index) : state.known index = .done none := by
  rw [CheckState.known, List.getD_eq_getElem?_getD, List.getElem?_eq_none outside, Option.getD_none]

theorem lt_length_of_ne (unknown : state.known index ≠ .done none) :
    index < state.constants.length := by
  by_contra outside
  exact unknown (known_of_le (Nat.le_of_not_lt outside))

@[simp]
theorem length_set (state : CheckState) (index : Nat) (constant : ConstantState) :
    (state.set index constant).constants.length = state.constants.length :=
  List.length_set ..

@[simp]
theorem reported_set (state : CheckState) (index : Nat) (constant : ConstantState) :
    (state.set index constant).reported = state.reported :=
  rfl

@[simp]
theorem known_reportAll (state : CheckState) (problems : Diagnostics) (index : Nat) :
    (state.reportAll problems).known index = state.known index :=
  rfl

@[simp]
theorem value?_reportAll (state : CheckState) (problems : Diagnostics) :
    (state.reportAll problems).value? = state.value? :=
  rfl

@[simp]
theorem reportAll_nil (state : CheckState) : state.reportAll [] = state := by
  rw [reportAll, List.append_nil]

theorem known_set_self (inside : index < state.constants.length) :
    (state.set index constant).known index = constant := by
  simp [CheckState.known, CheckState.set, inside]

theorem known_set_of_ne (differ : index ≠ other) :
    (state.set index constant).known other = state.known other := by
  simp [CheckState.known, CheckState.set, List.getElem?_set_ne differ]

end CheckState

namespace ConstantScope

variable {scope : ConstantScope} {demand : Nat → Checking (Option ConstantValue)}

/-- The problem of a use of a constant that is in progress. -/
def cyclicUse (reference : Reference) : Diagnostic :=
  .detailed .cyclicConstant reference.location ("`" ++ reference.name ++ "` depends on itself")

/-- The problem of a use of a constant of a given type that is not the expected one. -/
def wrongUse (scope : ConstantScope) (declared : TypeId) (reference : Reference) : Diagnostic :=
  scope.wrongConstant reference.expected declared reference.location reference.name

theorem run_refer_apply (reference : Reference) (state : CheckState) :
    (Plan.refer reference).run scope demand state =
      (match state.known reference.index with
      | .inProgress => Checking.refuse (cyclicUse reference)
      | _ => do
          match ← demand reference.index, scope.model.constants[reference.index]? with
          | some value, some constant =>
              if scope.graph.sameType constant.type reference.expected then return some value
              else Checking.refuse (scope.wrongUse constant.type reference)
          | _, _ => return none : Checking (Option ConstantValue)) state :=
  rfl

/-- What the value of a constant, once it is asked for, comes to at its use. -/
def useOf (scope : ConstantScope) (reference : Reference) (value? : Option ConstantValue) :
    Checking (Option ConstantValue) :=
  match value?, scope.model.constants[reference.index]? with
  | some value, some constant =>
      if scope.graph.sameType constant.type reference.expected then return some value
      else Checking.refuse (scope.wrongUse constant.type reference)
  | _, _ => return none

theorem run_refer_of_inProgress {reference : Reference} {state : CheckState}
    (found : state.known reference.index = .inProgress) :
    (Plan.refer reference).run scope demand state =
      (none, state.reportAll [cyclicUse reference]) := by
  rw [run_refer_apply, found]
  rfl

/-- The value of a use of a constant; a value of another type than is expected does not count. -/
def accept (scope : ConstantScope) (reference : Reference) (value? : Option ConstantValue) :
    Option ConstantValue :=
  match value?, scope.model.constants[reference.index]? with
  | some value, some constant =>
      if scope.graph.sameType constant.type reference.expected then some value else none
  | _, _ => none

/-- The problem of a use of a constant with a value of another type than is expected. -/
def misuse (scope : ConstantScope) (reference : Reference) (value? : Option ConstantValue) :
    Diagnostics :=
  match value?, scope.model.constants[reference.index]? with
  | some _, some constant =>
      if scope.graph.sameType constant.type reference.expected then []
      else [scope.wrongUse constant.type reference]
  | _, _ => []

@[simp]
theorem accept_none (reference : Reference) : scope.accept reference none = none :=
  rfl

@[simp]
theorem misuse_none (reference : Reference) : scope.misuse reference none = [] :=
  rfl

theorem run_refer_of_ne {reference : Reference} {state : CheckState}
    (idle : state.known reference.index ≠ .inProgress) :
    (Plan.refer reference).run scope demand state =
      (scope.accept reference (demand reference.index state).1,
        (demand reference.index state).2.reportAll
          (scope.misuse reference (demand reference.index state).1)) := by
  have asked : (Plan.refer reference).run scope demand state =
      scope.useOf reference (demand reference.index state).1 (demand reference.index state).2 := by
    rw [run_refer_apply]
    cases found : state.known reference.index with
    | inProgress => exact absurd found idle
    | pending => rfl
    | done value? => rfl
  rw [asked, useOf.eq_def, accept.eq_def, misuse.eq_def]
  cases (demand reference.index state).1 with
  | none => exact Prod.ext rfl (CheckState.reportAll_nil _).symm
  | some value =>
      cases scope.model.constants[reference.index]? with
      | none => exact Prod.ext rfl (CheckState.reportAll_nil _).symm
      | some constant =>
          dsimp only
          cases scope.graph.sameType constant.type reference.expected with
          | true => exact Prod.ext rfl (CheckState.reportAll_nil _).symm
          | false => rfl

theorem run_both {α β γ : Type} (combine : β → γ → α) (first : Plan β) (second : Plan γ)
    (state : CheckState) :
    (Plan.both combine first second).run scope demand state =
      ((first.run scope demand state).1.bind fun b =>
          (second.run scope demand (first.run scope demand state).2).1.map (combine b),
        (second.run scope demand (first.run scope demand state).2).2) :=
  rfl

end ConstantScope
end IdlSchema

/-! # Values of constants without a memo -/

namespace IdlSchema
namespace ConstantScope

variable (scope : ConstantScope)

/-- The value of a literal, given the values of all constants. -/
def elaborate (values : Nat → Option ConstantValue) (file : FileId) (expected : TypeId)
    (literal : Literal) : Option ConstantValue :=
  (scope.check (fun index => return values index) file expected literal
    { constants := [], reported := [] }).1

/-- The value of the constant at a place, given the values of all constants. -/
def elaborateAt (values : Nat → Option ConstantValue) (index : Nat) : Option ConstantValue :=
  (scope.model.constants[index]?).bind fun constant =>
    scope.elaborate values constant.file constant.type constant.value

/-- The plan of the constant at a place. -/
def planAt (index : Nat) : Plan ConstantValue :=
  match scope.model.constants[index]? with
  | some constant => scope.plan constant.file constant.type constant.value
  | none => .silent

/-- A constant refers to another: the check of its literal comes to the name of the other. -/
def Refers (a b : Nat) : Prop :=
  ∃ reference ∈ (scope.planAt a).references, reference.index = b

/-- A cycle of references can be reached from a constant. -/
def ReachesCycle (a : Nat) : Prop :=
  ∃ b, Relation.ReflTransGen scope.Refers a b ∧ Relation.TransGen scope.Refers b b

/-- A constant has a value, or none, by plain recursion. -/
inductive Elaborates : Nat → Option ConstantValue → Prop where
  | intro {index : Nat} {values : Nat → Option ConstantValue} :
      (∀ other, scope.Refers index other → Elaborates other (values other)) →
      Elaborates index (scope.elaborateAt values index)

/-- The value of a use of a constant, given the values of all constants. -/
def answer (values : Nat → Option ConstantValue) (reference : Reference) :
    Option ConstantValue :=
  scope.accept reference (values reference.index)

variable {scope}

private theorem run_eq_evaluate {α : Type} (plan : Plan α) (values : Nat → Option ConstantValue)
    (reported : Diagnostics) :
    ∃ reported', plan.run scope (fun index => return values index) ⟨[], reported⟩ =
      (plan.evaluate (scope.answer values), ⟨[], reported'⟩) := by
  induction plan generalizing reported with
  | value a => exact ⟨reported, rfl⟩
  | silent => exact ⟨reported, rfl⟩
  | refuse problem => exact ⟨reported ++ [problem], rfl⟩
  | refer reference =>
      rw [run_refer_of_ne (by simp [CheckState.known])]
      exact ⟨_, rfl⟩
  | both combine first second induction induction' =>
      obtain ⟨between, at_first⟩ := induction reported
      obtain ⟨after, at_second⟩ := induction' between
      rw [run_both, at_first, at_second]
      exact ⟨after, rfl⟩

/-- The value of a literal is that of its plan. -/
theorem elaborate_eq (values : Nat → Option ConstantValue) (file : FileId) (expected : TypeId)
    (literal : Literal) : scope.elaborate values file expected literal =
      (scope.plan file expected literal).evaluate (scope.answer values) := by
  obtain ⟨reported, same⟩ := run_eq_evaluate (scope.plan file expected literal) values []
  rw [elaborate, check_eq_run, same]

theorem elaborateAt_eq (values : Nat → Option ConstantValue) (index : Nat) :
    scope.elaborateAt values index = (scope.planAt index).evaluate (scope.answer values) := by
  rw [elaborateAt, planAt]
  cases scope.model.constants[index]? with
  | none => rfl
  | some constant => exact elaborate_eq values constant.file constant.type constant.value

/-- There is just one value by plain recursion. -/
theorem Elaborates.unique {index : Nat} {value? value?' : Option ConstantValue}
    (elaborates : scope.Elaborates index value?) (elaborates' : scope.Elaborates index value?') :
    value? = value?' := by
  induction elaborates generalizing value?' with
  | intro inner induction =>
      obtain ⟨inner'⟩ := elaborates'
      rw [elaborateAt_eq, elaborateAt_eq]
      refine Plan.evaluate_congr fun reference member => ?_
      have refers : scope.Refers _ reference.index := ⟨reference, member, rfl⟩
      rw [answer, answer, induction _ refers (inner' _ refers)]

/-- What is true of a value: it is the one by plain recursion, or a cycle keeps it from being. -/
structure Correct (scope : ConstantScope) (index : Nat) (value? : Option ConstantValue) : Prop where
  elaborates : ¬ scope.ReachesCycle index → scope.Elaborates index value?
  absent : scope.ReachesCycle index → value? = none

/-- From a constant from which a cycle is reachable, it is so by a constant it refers to. -/
theorem ReachesCycle.exists_refers {index : Nat} (reaches : scope.ReachesCycle index) :
    ∃ other, scope.Refers index other ∧ scope.ReachesCycle other := by
  obtain ⟨last, path, cycle⟩ := reaches
  rcases Relation.ReflTransGen.cases_head path with rfl | ⟨next, refers, path'⟩
  · obtain ⟨next, refers, back⟩ := Relation.TransGen.head'_iff.mp cycle
    exact ⟨next, refers, index, back, cycle⟩
  · exact ⟨next, refers, last, path', cycle⟩

theorem ReachesCycle.of_refers {index other : Nat} (refers : scope.Refers index other)
    (reaches : scope.ReachesCycle other) : scope.ReachesCycle index := by
  obtain ⟨last, path, cycle⟩ := reaches
  exact ⟨last, .head refers path, cycle⟩

theorem planAt_of_none {index : Nat} (absent : scope.model.constants[index]? = none) :
    scope.planAt index = .silent := by
  rw [planAt, absent]

/-- What is no constant has no value. -/
theorem correct_of_none {index : Nat} (absent : scope.model.constants[index]? = none) :
    scope.Correct index none := by
  have no_references (other : Nat) : ¬ scope.Refers index other := by
    rintro ⟨reference, member, _⟩
    rw [planAt_of_none absent] at member
    exact List.not_mem_nil member
  refine ⟨fun _ => ?_, fun _ => rfl⟩
  have elaborates : scope.Elaborates index (scope.elaborateAt (fun _ => none) index) :=
    .intro fun other refers => absurd refers (no_references other)
  rwa [elaborateAt, absent, Option.bind_none] at elaborates

end ConstantScope
end IdlSchema
