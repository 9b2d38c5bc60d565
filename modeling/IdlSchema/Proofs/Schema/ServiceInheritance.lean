import IdlSchema.Proofs.Link.ParallelLinks
import IdlSchema.Proofs.Rules.InheritedMethods
import IdlSchema.Proofs.Rules.ProblemKinds
import IdlSchema.Proofs.Rules.RepeatedKeys
import IdlSchema.Proofs.Rules.ServiceCycles
import IdlSchema.Proofs.Schema.RearrangedLinks

/-!
# What is told of service inheritance

Whatever linking has reported, the services of a linked model are checked to the end: each that builds
on something else is told, each circle of services, and each method with the name of another one.
-/

namespace IdlSchema

open Diagnostics Relation

namespace ServiceType

variable {ν : Type}

/-- The search for cycles and the walk along the bases come to an end by themselves. -/
structure ComesToEnd (bases : Digraph) : Prop where
  search : ∀ fuel, bases.size ≤ fuel → bases.searchWithin fuel = bases.searchWithin bases.size
  cycles : ∀ start others fuel, (start :: others).length ≤ fuel →
    bases.cycleFrom (start :: others) start fuel [start] start = bases.cyclePath (start :: others)
  walks : ∀ place fuel, bases.size ≤ fuel →
    ancestorsFrom bases fuel [place] place = ancestors bases place

/--
What is told of services: of each that builds on something else, of each circle of services, and of
each method that has the name of another one.
-/
structure ChecksInheritance (graph : TypeGraph) (services : List (ServiceType ν))
    (problems : Diagnostics) : Prop where
  distinct : (services.map (·.id)).Nodup
  ends : ComesToEnd (baseGraph graph services)
  bases : ∃ refused : List (ServiceType ν), refused.Sublist services ∧
    (∀ service ∈ services, service ∈ refused ↔ service.InheritsAmiss graph) ∧
    List.Forall₂ (fun problem service => problem.location = service.location)
      (problems.ofKind .invalidServiceExtends) refused
  cycles : ∃ cycles : List (List (ServiceType ν)),
    (∀ cycle, cycle ∈ cycles ↔ ∃ head, IsCycle graph services head cycle) ∧
    cycles.Pairwise List.Disjoint ∧
    List.Forall₂ (fun problem cycle => ∃ head ∈ cycle.head?, TellsCycle head cycle problem)
      (problems.ofKind .cyclicServiceInheritance) cycles
  methods : ∃ told : List (List (Option Diagnostic)),
    List.Forall₂ (fun service told => List.Forall₂ (fun placed told? =>
        JudgesMethod graph services service (service.methods.take placed.2) placed.1 told?)
      service.methods.zipIdx told) services told ∧
    problems.ofKind .duplicateMethod = told.flatten.reduceOption

variable {graph : TypeGraph} {services : List (ServiceType ν)}

theorem comesToEnd (graph : TypeGraph) (services : List (ServiceType ν)) :
    ComesToEnd (baseGraph graph services) where
  search _ enough := Digraph.searchWithin_eq enough
  cycles _ _ _ enough := Digraph.cycleFrom_eq_cyclePath enough
  walks place _ enough :=
    (walks_from_place (single_baseGraph graph services) place enough).eq
      (single_baseGraph graph services)
      (walks_from_place (single_baseGraph graph services) place le_rfl)

/-- What is told of methods is told of each method behind the earlier ones of its service. -/
theorem reduceOption_methodProblems (bases : Digraph) :
    (services.zipIdx.flatMap fun (service, place) => methodProblems services bases place service) =
      (services.zipIdx.map fun placed => placed.1.methods.zipIdx.map fun method =>
        methodProblem? services (ancestors bases placed.2) (placed.1.methods.take method.2)
          method.1).flatten.reduceOption := by
  rw [List.reduceOption, List.filterMap_flatten, List.map_map, List.flatMap_def]
  refine congrArg List.flatten (List.map_congr_left fun (service, place) _ => ?_)
  dsimp only [Function.comp_apply]
  rw [methodProblems, withEarlier_eq_zipIdx, List.filterMap_map, List.filterMap_map]
  rfl

/-- What the rules find of services that are apart is what there is to tell. -/
theorem checksInheritance_problems (wellFormed : graph.WellFormed)
    (kinds : ∀ service ∈ services, graph.kind? service.id = some .service)
    (nodup : (services.map (·.id)).Nodup) :
    ChecksInheritance graph services (problems graph services) := by
  have methods : Among [.duplicateMethod] (services.zipIdx.flatMap fun (service, place) =>
      methodProblems services (baseGraph graph services) place service) :=
    among_flatMap fun _ _ => among_methodProblems services _ _ _
  constructor
  case distinct => exact nodup
  case ends => exact comesToEnd graph services
  case bases =>
    rw [problems, ofKind_append, ofKind_append, (among_baseProblems graph services).ofKind_eq_self,
      (among_cycleProblems services _).ofKind_eq_nil (by decide), methods.ofKind_eq_nil (by decide),
      List.append_nil, List.append_nil]
    exact exists_refused wellFormed services
  case cycles =>
    rw [problems, ofKind_append, ofKind_append,
      (among_baseProblems graph services).ofKind_eq_nil (by decide),
      (among_cycleProblems services _).ofKind_eq_self, methods.ofKind_eq_nil (by decide),
      List.append_nil, List.nil_append]
    exact exists_cycles wellFormed kinds nodup
  case methods =>
    rw [problems, ofKind_append, ofKind_append,
      (among_baseProblems graph services).ofKind_eq_nil (by decide),
      (among_cycleProblems services _).ofKind_eq_nil (by decide), methods.ofKind_eq_self,
      List.nil_append, List.nil_append]
    refine ⟨_, forall₂_map_zipIdx fun place service found => ?_, reduceOption_methodProblems _⟩
    rw [List.forall₂_map_right_iff, List.forall₂_same]
    exact fun method _ => judgesMethod wellFormed kinds nodup found _ _

end ServiceType

/-- What services build on is told of services alone. -/
theorem Model.ofKind_problems_of_service {ν : Type} {kind : DiagnosticKind}
    (of_service : kind ∈
      [DiagnosticKind.invalidServiceExtends, .cyclicServiceInheritance, .duplicateMethod])
    (model : Model ν) (graph : TypeGraph) :
    (model.problems graph).ofKind kind =
      (ServiceType.problems graph model.services).ofKind kind := by
  have other {kinds : List DiagnosticKind} {reported : Diagnostics} (among : Among kinds reported)
      (others : ∀ kind ∈ [DiagnosticKind.invalidServiceExtends, .cyclicServiceInheritance,
        .duplicateMethod], kind ∉ kinds) : reported.ofKind kind = [] :=
    among.ofKind_eq_nil (others kind of_service)
  rw [problems, ofKind_append, ofKind_append, ofKind_append,
    other model.among_structProblems (by decide), other model.among_enumProblems (by decide),
    other (model.among_methodProblems graph) (by decide), List.append_nil, List.append_nil,
    List.nil_append]

namespace FileTable

variable (files : FileTable) (order : List FileId) (warnDeprecated : Bool)

theorem service_ids_link : (files.link order warnDeprecated).model.services.map (·.id) =
    (files.literals order warnDeprecated).1.services.map (·.id) := by
  rw [link_eq, checked, (files.constantScope order warnDeprecated).checkModel_eq []]
  exact ConstantScope.service_ids_elaborateModel

/-- The inheritance of services is checked as it should be in whatever linking leads to. -/
theorem checksInheritance : ServiceType.ChecksInheritance (files.link order warnDeprecated).graph
    (files.link order warnDeprecated).model.services
    ((files.link order warnDeprecated).model.problems
      (files.link order warnDeprecated).graph) := by
  have wellFormed := wellFormed_literals files order warnDeprecated
  have ids := service_ids_link files order warnDeprecated
  have nodup : ((files.link order warnDeprecated).model.services.map (·.id)).Nodup :=
    ids ▸ nodup_service_ids files order warnDeprecated
  have kinds : ∀ service ∈ (files.link order warnDeprecated).model.services,
      (files.link order warnDeprecated).graph.kind? service.id = some .service := by
    intro service member
    have listed := List.mem_map_of_mem (f := ServiceType.id) member
    rw [ids] at listed
    obtain ⟨literal, literal_mem, same⟩ := List.mem_map.mp listed
    exact same ▸ kind?_of_mem_services files order warnDeprecated literal_mem
  have checks := ServiceType.checksInheritance_problems wellFormed kinds nodup
  constructor
  case distinct => exact nodup
  case ends => exact checks.ends
  case bases =>
    rw [Model.ofKind_problems_of_service (by decide)]
    exact checks.bases
  case cycles =>
    rw [Model.ofKind_problems_of_service (by decide)]
    exact checks.cycles
  case methods =>
    rw [Model.ofKind_problems_of_service (by decide)]
    exact checks.methods

end FileTable
end IdlSchema
