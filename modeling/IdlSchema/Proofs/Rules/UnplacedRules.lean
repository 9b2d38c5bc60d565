import IdlSchema.Proofs.Link.UnplacedModels
import IdlSchema.Rules.Rules

/-!
# Rules without positions

Which rules a model violates, and what is said of it, does not depend on positions.
-/

namespace IdlSchema

/-! ## Repetitions -/

section

variable {α β : Type} (f : α → β)

theorem withEarlier_map (list : List α) :
    withEarlier (list.map f) = (withEarlier list).map fun (earlier, a) => (earlier.map f, f a) := by
  have behind (earlier : List α) : withEarlierFrom (earlier.map f) (list.map f) =
      (withEarlierFrom earlier list).map fun (earlier, a) => (earlier.map f, f a) := by
    induction list generalizing earlier with
    | nil => rfl
    | cons a rest induction =>
        have next := induction (earlier ++ [a])
        rw [List.map_append, List.map_singleton] at next
        rw [List.map_cons, withEarlierFrom, withEarlierFrom, List.map_cons, next]
  exact behind []

theorem firstWithKey?_map {κ : Type} [BEq κ] (key : α → κ) (key' : β → κ)
    (same : ∀ a, key' (f a) = key a) (earlier : List α) (a : α) :
    firstWithKey? key' (earlier.map f) (f a) = (firstWithKey? key earlier a).map f := by
  rw [firstWithKey?, firstWithKey?, List.find?_map]
  simp only [Function.comp_def, same]

/-- What is reported of each element behind earlier ones is the same of changed elements. -/
theorem flatMap_withEarlier_unplaced {problems : List α → α → Diagnostics}
    {problems' : List β → β → Diagnostics}
    (each : ∀ earlier a, problems' (earlier.map f) (f a) =
      (problems earlier a).map Diagnostic.unplaced) (list : List α) :
    ((withEarlier (list.map f)).flatMap fun (earlier, b) => problems' earlier b) =
      ((withEarlier list).flatMap fun (earlier, a) => problems earlier a).map
        Diagnostic.unplaced := by
  rw [withEarlier_map, List.flatMap_map, List.map_flatMap]
  exact congrArg (List.flatMap · _) (funext fun entry => each entry.1 entry.2)

end

/-! ## Enums and fields -/

theorem EnumType.problems_unplaced (enum : EnumType) :
    enum.unplaced.problems = enum.problems.map Diagnostic.unplaced := by
  refine flatMap_withEarlier_unplaced EnumMember.unplaced (fun earlier member => ?_) enum.members
  have names := firstWithKey?_map EnumMember.unplaced (·.name) (·.name) (fun _ => rfl) earlier member
  have values := firstWithKey?_map EnumMember.unplaced (·.value) (·.value) (fun _ => rfl) earlier
    member
  rw [repetitions, repetitions, names, values]
  cases firstWithKey? (·.name) earlier member <;>
    cases firstWithKey? (·.value) earlier member <;> rfl

section

variable {ν : Type} (change : ν → ν)

theorem Field.listProblems_unplaced (role : FieldRole) (fields : List (Field ν)) :
    listProblems role (fields.map (unplaced change)) =
      (listProblems role fields).map Diagnostic.unplaced := by
  refine flatMap_withEarlier_unplaced (unplaced change) (fun earlier field => ?_) fields
  have ids := firstWithKey?_map (unplaced change) (·.id) (·.id) (fun _ => rfl) earlier field
  have names := firstWithKey?_map (unplaced change) (·.name) (·.name) (fun _ => rfl) earlier field
  rw [repetitions, repetitions, ids, names]
  cases firstWithKey? (·.id) earlier field <;>
    cases firstWithKey? (·.name) earlier field <;> rfl

namespace StructType

theorem unionProblems_unplaced (union : StructType ν) :
    (union.unplaced change).unionProblems = union.unionProblems.map Diagnostic.unplaced := by
  refine flatMap_withEarlier_unplaced (Field.unplaced change) (fun earlier field => ?_) union.fields
  have defaults (field : Field ν) :
      (field.unplaced change).default?.isSome = field.default?.isSome := Option.isSome_map
  have first : (earlier.map (Field.unplaced change)).find? (·.default?.isSome) =
      (earlier.find? (·.default?.isSome)).map (Field.unplaced change) := by
    rw [List.find?_map]
    simp only [Function.comp_def, defaults]
  have required : (field.unplaced change).isRequired = field.isRequired := rfl
  rw [memberProblems, memberProblems, first, required, defaults, List.map_append]
  congr 1
  · cases field.isRequired <;> rfl
  · cases field.default?.isSome with
    | false => rfl
    | true => cases earlier.find? (·.default?.isSome) <;> rfl

theorem problems_unplaced (struct : StructType ν) :
    (struct.unplaced change).problems = struct.problems.map Diagnostic.unplaced := by
  have kind : (struct.unplaced change).kind = struct.kind := rfl
  rw [problems, problems, kind, List.map_append, unionProblems_unplaced]
  congr 1
  · exact Field.listProblems_unplaced change .field struct.fields
  · split <;> rfl

end StructType

/-! ## Services -/

namespace Method

variable (graph : TypeGraph) (method : Method ν)

theorem exceptionProblems_unplaced (exception : Field ν) :
    exceptionProblems graph.unplaced (exception.unplaced change) =
      (exceptionProblems graph exception).map Diagnostic.unplaced := by
  simp only [exceptionProblems, Field.unplaced, TypeGraph.isInvalid_unplaced,
    TypeGraph.isException_unplaced, TypeGraph.typeName_unplaced]
  split <;> rfl

theorem returnProblems_unplaced : (method.unplaced change).returnProblems graph.unplaced =
    (method.returnProblems graph).map Diagnostic.unplaced := by
  simp only [returnProblems, unplaced, TypeGraph.isInvalid_unplaced, TypeGraph.isVoid_unplaced,
    TypeGraph.typeName_unplaced]
  split <;> rfl

theorem throwProblems_unplaced :
    (method.unplaced change).throwProblems = method.throwProblems.map Diagnostic.unplaced := by
  have empty : (method.unplaced change).exceptions.isEmpty = method.exceptions.isEmpty :=
    List.isEmpty_map
  rw [throwProblems, throwProblems, empty]
  split <;> rfl

theorem problems_unplaced : (method.unplaced change).problems graph.unplaced =
    (method.problems graph).map Diagnostic.unplaced := by
  have one_way : (method.unplaced change).oneWay = method.oneWay := rfl
  rw [problems, problems, returnProblems_unplaced, throwProblems_unplaced, one_way]
  simp only [unplaced, Field.listProblems_unplaced, List.flatMap_map, List.map_flatMap,
    exceptionProblems_unplaced, List.map_append]
  cases method.oneWay with
  | true => exact congrArg _ List.map_append.symm
  | false => rfl

end Method

namespace ServiceType

variable (graph : TypeGraph) (services : List (ServiceType ν))

theorem baseGraph_unplaced : baseGraph graph.unplaced (services.map (unplaced change)) =
    baseGraph graph services := by
  have place (service : ServiceType ν) :
      basePlace? graph.unplaced (services.map (unplaced change)) (service.unplaced change) =
        basePlace? graph services service := by
    simp only [basePlace?, unplaced, TypeGraph.trueType_unplaced, List.findIdx?_map]
    rfl
  rw [baseGraph, baseGraph, List.map_map]
  simp only [Function.comp_def, place]

theorem cycleProblem_unplaced (bases : Digraph) (component : List Nat) :
    cycleProblem (services.map (unplaced change)) bases component =
      (cycleProblem services bases component).map Diagnostic.unplaced := by
  cases component with
  | nil => rfl
  | cons first others =>
      have named (place : Nat) : (services.map (unplaced change))[place]?.map (·.name) =
          services[place]?.map (·.name) := by
        rw [List.getElem?_map, Option.map_map]
        rfl
      simp only [cycleProblem, named]
      rw [List.getElem?_map, Option.map_map, Option.map_map]
      rfl

theorem cycleProblems_unplaced (bases : Digraph) :
    cycleProblems (services.map (unplaced change)) bases =
      (cycleProblems services bases).map Diagnostic.unplaced := by
  rw [cycleProblems, cycleProblems, List.map_filterMap]
  exact List.filterMap_congr fun component _ =>
    cycleProblem_unplaced change services bases component

theorem inherited?_unplaced (ancestors : List Nat) (name : String) :
    inherited? (services.map (unplaced change)) ancestors name =
      (inherited? services ancestors name).map fun (base, method) =>
        (base.unplaced change, method.unplaced change) := by
  have above : ancestors.filterMap ((services.map (unplaced change))[·]?) =
      (ancestors.filterMap (services[·]?)).map (unplaced change) := by
    rw [List.map_filterMap]
    exact List.filterMap_congr fun place _ => List.getElem?_map
  have method (base : ServiceType ν) : (base.unplaced change).method? name =
      (base.method? name).map (Method.unplaced change) := by
    rw [method?, method?, unplaced, List.find?_map]
    rfl
  rw [inherited?, inherited?, above, List.findSome?_map, List.map_findSome?]
  refine congrArg (List.findSome? · _) (funext fun base => ?_)
  simp only [Function.comp_apply, method, Option.map_map]
  rfl

theorem baseProblems_unplaced (service : ServiceType ν) :
    baseProblems graph.unplaced (service.unplaced change) =
      (baseProblems graph service).map Diagnostic.unplaced := by
  have base : (service.unplaced change).base? = service.base? := rfl
  rw [baseProblems, baseProblems, base]
  cases service.base? with
  | none => rfl
  | some base =>
      simp only [TypeGraph.isService_unplaced, TypeGraph.isInvalid_unplaced,
        TypeGraph.typeName_unplaced]
      split <;> rfl

theorem methodProblem?_unplaced (ancestors : List Nat) (earlier : List (Method ν))
    (method : Method ν) :
    methodProblem? (services.map (unplaced change)) ancestors
        (earlier.map (Method.unplaced change)) (method.unplaced change) =
      (methodProblem? services ancestors earlier method).map Diagnostic.unplaced := by
  have name : (method.unplaced change).name = method.name := rfl
  have first := firstWithKey?_map (Method.unplaced change) (·.name) (·.name) (fun _ => rfl)
    earlier method
  rw [methodProblem?, methodProblem?, first, name, inherited?_unplaced]
  cases firstWithKey? (·.name) earlier method with
  | some _ => rfl
  | none => cases inherited? services ancestors method.name <;> rfl

theorem methodProblems_unplaced (bases : Digraph) (place : Nat) (service : ServiceType ν) :
    methodProblems (services.map (unplaced change)) bases place (service.unplaced change) =
      (methodProblems services bases place service).map Diagnostic.unplaced := by
  rw [methodProblems, methodProblems, unplaced, withEarlier_map, List.filterMap_map,
    List.map_filterMap]
  exact List.filterMap_congr fun entry _ =>
    methodProblem?_unplaced change services _ entry.1 entry.2

theorem problems_unplaced : problems graph.unplaced (services.map (unplaced change)) =
    (problems graph services).map Diagnostic.unplaced := by
  simp only [problems, baseGraph_unplaced, cycleProblems_unplaced, List.map_append,
    List.zipIdx_map, List.flatMap_map, List.map_flatMap, baseProblems_unplaced, Prod.map,
    methodProblems_unplaced]
  rfl

end ServiceType

/-- A model violates the same rules without positions. -/
theorem Model.problems_unplaced (model : Model ν) (graph : TypeGraph) :
    (model.unplaced change).problems graph.unplaced =
      (model.problems graph).map Diagnostic.unplaced := by
  simp only [problems, unplaced, List.flatMap_map, List.map_append, List.map_flatMap,
    StructType.problems_unplaced, EnumType.problems_unplaced, ServiceType.problems_unplaced,
    ServiceType.unplaced, Method.problems_unplaced]

end

end IdlSchema
