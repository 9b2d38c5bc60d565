import IdlSchema.Proofs.Diagnostics
import IdlSchema.Rules.Rules

/-!
# The kinds of problems that rules find

Every rule for a model reports problems of its own kinds, and all of them are errors.
-/

namespace IdlSchema

open Diagnostics

/-- The kinds of problems that rules find in a model. -/
def ruleKinds : List DiagnosticKind :=
  [.duplicateFieldId, .duplicateFieldName, .invalidUnionField, .invalidExceptionType,
    .oneWayReturnType, .oneWayThrows, .duplicateEnumMember, .invalidServiceExtends,
    .cyclicServiceInheritance, .duplicateMethod]

theorem among_map_toList {α : Type} {problem : α → Diagnostic} {found? : Option α}
    {kinds : List DiagnosticKind} (known : ∀ a, (problem a).kind ∈ kinds) :
    Among kinds (found?.map problem).toList := by
  cases found? with
  | none => exact among_nil
  | some a => exact among_singleton (known a)

variable {ν : Type}

theorem Field.among_listProblems (role : FieldRole) (fields : List (Field ν)) :
    Among [.duplicateFieldId, .duplicateFieldName] (listProblems role fields) :=
  among_flatMap fun _ _ => among_append.mpr
    ⟨among_map_toList fun _ => List.mem_cons_self,
      among_map_toList fun _ => List.mem_cons_of_mem _ List.mem_cons_self⟩

theorem EnumType.among_problems (enum : EnumType) :
    Among [.duplicateEnumMember] enum.problems :=
  among_flatMap fun _ _ => among_append.mpr
    ⟨among_map_toList fun _ => List.mem_cons_self, among_map_toList fun _ => List.mem_cons_self⟩

namespace StructType

theorem among_unionProblems (union : StructType ν) :
    Among [.invalidUnionField] union.unionProblems := by
  refine among_flatMap fun (_, field) _ => among_append.mpr ⟨?_, ?_⟩
  · split
    · exact among_singleton List.mem_cons_self
    · exact among_nil
  · split
    · exact among_map_toList fun _ => List.mem_cons_self
    · exact among_nil

/-- What is reported of a struct beside repetitions. -/
theorem among_ownProblems (struct : StructType ν) :
    Among [.invalidUnionField] (if struct.kind = .union then struct.unionProblems else []) := by
  split
  · exact struct.among_unionProblems
  · exact among_nil

theorem among_problems (struct : StructType ν) :
    Among [.duplicateFieldId, .duplicateFieldName, .invalidUnionField] struct.problems :=
  among_append.mpr ⟨(Field.among_listProblems .field struct.fields).mono (by decide),
    struct.among_ownProblems.mono (by decide)⟩

end StructType

namespace Method

theorem among_exceptionProblems (graph : TypeGraph) (exceptions : List (Field ν)) :
    Among [.invalidExceptionType] (exceptions.flatMap (exceptionProblems graph)) := by
  refine among_flatMap fun exception _ => ?_
  rw [exceptionProblems]
  split
  · exact among_nil
  · exact among_singleton List.mem_cons_self

theorem among_oneWayProblems (graph : TypeGraph) (method : Method ν) :
    Among [.oneWayReturnType, .oneWayThrows]
      (if method.oneWay then method.returnProblems graph ++ method.throwProblems else []) := by
  split
  · refine among_append.mpr ⟨?_, ?_⟩
    · rw [returnProblems]
      split
      · exact among_nil
      · exact among_singleton List.mem_cons_self
    · rw [throwProblems]
      split
      · exact among_nil
      · exact among_singleton (List.mem_cons_of_mem _ List.mem_cons_self)
  · exact among_nil

theorem among_problems (graph : TypeGraph) (method : Method ν) :
    Among [.duplicateFieldId, .duplicateFieldName, .invalidExceptionType, .oneWayReturnType,
      .oneWayThrows] (method.problems graph) :=
  among_append.mpr ⟨among_append.mpr ⟨among_append.mpr
    ⟨(Field.among_listProblems .parameter method.parameters).mono (by decide),
      (Field.among_listProblems .exception method.exceptions).mono (by decide)⟩,
    (among_exceptionProblems graph method.exceptions).mono (by decide)⟩,
    (method.among_oneWayProblems graph).mono (by decide)⟩

end Method

namespace ServiceType

variable (graph : TypeGraph) (services : List (ServiceType ν)) (bases : Digraph)

theorem among_baseProblems :
    Among [.invalidServiceExtends] (services.flatMap (baseProblems graph)) := by
  refine among_flatMap fun service _ => ?_
  rw [baseProblems]
  split
  · split
    · exact among_nil
    · exact among_singleton List.mem_cons_self
  · exact among_nil

theorem among_cycleProblems :
    Among [.cyclicServiceInheritance] (cycleProblems services bases) := by
  intro problem reported
  obtain ⟨component, _, found⟩ := List.mem_filterMap.mp reported
  cases component with
  | nil => cases found
  | cons first others =>
      obtain ⟨head, _, rfl⟩ := Option.map_eq_some_iff.mp found
      exact List.mem_cons_self

theorem among_methodProblems (place : Nat) (service : ServiceType ν) :
    Among [.duplicateMethod] (methodProblems services bases place service) := by
  intro problem reported
  obtain ⟨⟨earlier, method⟩, _, found⟩ := List.mem_filterMap.mp reported
  dsimp only at found
  rw [methodProblem?] at found
  split at found
  · cases found
    exact List.mem_cons_self
  · obtain ⟨_, _, rfl⟩ := Option.map_eq_some_iff.mp found
    exact List.mem_cons_self

theorem among_problems :
    Among [.invalidServiceExtends, .cyclicServiceInheritance, .duplicateMethod]
      (problems graph services) := by
  refine among_append.mpr ⟨among_append.mpr ⟨?_, ?_⟩, among_flatMap fun _ _ => ?_⟩
  · exact (among_baseProblems graph services).mono (by simp)
  · exact (among_cycleProblems services _).mono (by simp)
  · exact (among_methodProblems services _ _ _).mono (by simp)

end ServiceType

namespace Model

variable (model : Model ν) (graph : TypeGraph)

theorem among_structProblems :
    Among [.duplicateFieldId, .duplicateFieldName, .invalidUnionField]
      (model.structs.flatMap (·.problems)) :=
  among_flatMap fun struct _ => struct.among_problems

theorem among_enumProblems :
    Among [.duplicateEnumMember] (model.enums.flatMap (·.problems)) :=
  among_flatMap fun enum _ => enum.among_problems

theorem among_methodProblems :
    Among [.duplicateFieldId, .duplicateFieldName, .invalidExceptionType, .oneWayReturnType,
      .oneWayThrows]
      (model.services.flatMap fun service => service.methods.flatMap (Method.problems graph)) :=
  among_flatMap fun _ _ => among_flatMap fun method _ => method.among_problems graph

/-- The problems of a model are of the kinds of rules. -/
theorem among_problems : Among ruleKinds (model.problems graph) :=
  among_append.mpr ⟨among_append.mpr ⟨among_append.mpr
    ⟨model.among_structProblems.mono (by decide), model.among_enumProblems.mono (by decide)⟩,
    (model.among_methodProblems graph).mono (by decide)⟩,
    (ServiceType.among_problems graph model.services).mono (by decide)⟩

end Model
end IdlSchema
