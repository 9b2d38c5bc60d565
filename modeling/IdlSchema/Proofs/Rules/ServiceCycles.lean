import IdlSchema.Proofs.Places
import IdlSchema.Proofs.Rules.InheritedMethods

/-!
# Services in a circle

A service builds on one other at most, so nothing leads out of a circle of services that build on one
another.  Each circle is told once, from the service that is listed first, and all its services are
named in order; the last of them builds on the first.
-/

namespace IdlSchema

open Relation

namespace ServiceType

variable {ν : Type}

/--
Services that build on one another in a circle.  The walk around it starts at the one that is listed
first.
-/
structure IsCycle (graph : TypeGraph) (services : List (ServiceType ν)) (head : ServiceType ν)
    (cycle : List (ServiceType ν)) : Prop where
  starts : cycle.head? = some head
  listed : cycle ⊆ services
  nodup : cycle.Nodup
  linked : cycle.IsChain (Inherits graph services)
  closed : ∀ last ∈ cycle.getLast?, Inherits graph services last head
  lowest : ∀ other ∈ cycle, ∀ place place' : Nat, services[place]? = some head →
    services[place']? = some other → place ≤ place'

/-- A problem stands at the first service of a cycle and names all of them, and the first again. -/
structure TellsCycle (head : ServiceType ν) (cycle : List (ServiceType ν)) (problem : Diagnostic) :
    Prop where
  location : problem.location = head.location
  message : problem.message = DiagnosticKind.message .cyclicServiceInheritance
    (some (Digraph.pathText ((cycle ++ [head]).map (·.name))))

variable {graph : TypeGraph} {services : List (ServiceType ν)}

/-! ## Walks around a cycle -/

/-- The services along the closed path through a component, each once. -/
def cycleOf (graph : TypeGraph) (services : List (ServiceType ν)) (component : List Nat) :
    List (ServiceType ν) :=
  ((baseGraph graph services).cyclePath component).dropLast.filterMap (services[·]?)

namespace IsCycle

variable {head head' : ServiceType ν} {cycle cycle' : List (ServiceType ν)}

/-- From every service of a cycle there is a way to the first one. -/
theorem reaches (isCycle : IsCycle graph services head cycle) {service : ServiceType ν}
    (member : service ∈ cycle) : TransGen (Inherits graph services) service head := by
  obtain ⟨front, back, rfl⟩ := List.append_of_mem member
  have onward := (List.isChain_append.mp isCycle.linked).2.1
  have path := List.relationReflTransGen_of_exists_isChain_cons back onward rfl
  refine TransGen.tail' path (isCycle.closed _ ?_)
  rw [List.getLast?_append_of_ne_nil front (List.cons_ne_nil service back)]
  exact List.getLast?_eq_some_getLast _

theorem head_mem (isCycle : IsCycle graph services head cycle) : head ∈ cycle :=
  List.mem_of_mem_head? isCycle.starts

/-- What can be reached from a service of a cycle is a service of the cycle. -/
theorem mem_of_reaches (unique : Relator.RightUnique (Inherits graph services))
    (isCycle : IsCycle graph services head cycle) {service other : ServiceType ν}
    (member : service ∈ cycle) (path : ReflTransGen (Inherits graph services) service other) :
    other ∈ cycle := by
  refine mem_of_reflTransGen unique isCycle.linked (fun last at_last next step => ?_) member path
  exact unique (isCycle.closed last at_last) step ▸ isCycle.head_mem

/-- Two cycles with a common service are the same. -/
theorem eq_of_mem (unique : Relator.RightUnique (Inherits graph services))
    (isCycle : IsCycle graph services head cycle) (isCycle' : IsCycle graph services head' cycle')
    (member : head ∈ cycle') : cycle = cycle' := by
  have member' := isCycle.mem_of_reaches unique isCycle.head_mem
    (isCycle'.reaches member).to_reflTransGen
  obtain ⟨place, found⟩ := List.getElem?_of_mem (isCycle.listed isCycle.head_mem)
  obtain ⟨place', found'⟩ := List.getElem?_of_mem (isCycle'.listed isCycle'.head_mem)
  have same : place = place' := Nat.le_antisymm (isCycle.lowest head' member' place place' found found')
    (isCycle'.lowest head member place' place found' found)
  obtain rfl : head = head' := Option.some.inj ((same ▸ found).symm.trans found')
  obtain ⟨walk, rfl⟩ := List.head?_eq_some_iff.mp isCycle.starts
  obtain ⟨walk', rfl⟩ := List.head?_eq_some_iff.mp isCycle'.starts
  rw [eq_of_isChain_of_returns unique isCycle.linked isCycle'.linked
    (List.nodup_cons.mp isCycle.nodup).1 (List.nodup_cons.mp isCycle'.nodup).1 isCycle.closed
    isCycle'.closed]

end IsCycle

section

variable (wellFormed : graph.WellFormed)
  (kinds : ∀ service ∈ services, graph.kind? service.id = some .service)
  (nodup : (services.map (·.id)).Nodup)

include wellFormed kinds nodup

section

variable {first : Nat} {others : List Nat}
  (listed : first :: others ∈ (baseGraph graph services).components)
  (cyclic : (baseGraph graph services).isCyclic (first :: others) = true)

include listed cyclic

/-- The services of a component in which something comes back are a cycle. -/
theorem exists_isCycle : ∃ head, services[first]? = some head ∧
    IsCycle graph services head (cycleOf graph services (first :: others)) ∧
    ∀ place service, services[place]? = some service →
      (service ∈ cycleOf graph services (first :: others) ↔ place ∈ first :: others) := by
  obtain ⟨steps, path, winds⟩ := (baseGraph graph services).exists_winds first others
  obtain ⟨comes_back, all⟩ :=
    winds.closes (unique_of_single (single_baseGraph graph services)) listed cyclic
  have size : (baseGraph graph services).size = services.length := List.length_map ..
  have inside : ∀ place ∈ steps, place < services.length := fun place member =>
    size ▸ Digraph.lt_size_of_mem_components listed (winds.inside member)
  obtain ⟨rest, rfl⟩ := List.head?_eq_some_iff.mp winds.starts
  have at_first := List.getElem?_eq_getElem (inside first List.mem_cons_self)
  have at_place {place : Nat} {service : ServiceType ν} (found : services[place]? = some service) :
      service ∈ (first :: rest).filterMap (services[·]?) ↔ place ∈ first :: others := by
    rw [List.mem_filterMap]
    constructor
    · rintro ⟨place', member, found'⟩
      exact place_unique nodup found' found ▸ winds.inside member
    · exact fun member => ⟨place, all member, found⟩
  rw [cycleOf, path, List.dropLast_concat]
  refine ⟨_, at_first, ?isCycle, fun place service found => at_place found⟩
  constructor
  case starts => rw [List.filterMap_cons_some at_first, List.head?_cons]
  case listed =>
    intro service member
    obtain ⟨place, _, found⟩ := List.mem_filterMap.mp member
    exact List.mem_of_getElem? found
  case nodup =>
    exact winds.nodup.filterMap fun place place' service found found' =>
      place_unique nodup found found'
  case linked =>
    exact isChain_filterMap (fun found found' =>
      (points_iff_inherits wellFormed kinds nodup found found').mp) inside winds.edges
  case closed =>
    intro last at_last
    obtain ⟨place, at_end, found⟩ := exists_getLast?_of_filterMap inside at_last
    exact (points_iff_inherits wellFormed kinds nodup found at_first).mp (comes_back place at_end)
  case lowest =>
    intro other member place place' found found'
    obtain rfl := place_unique nodup at_first found
    have ascending := (Digraph.pairwise_of_mem_components listed).2
    rcases List.mem_cons.mp ((at_place found').mp member) with rfl | behind
    · exact le_rfl
    · exact (List.rel_of_pairwise_cons ascending behind).le

/-- The problem of a component tells its cycle. -/
theorem exists_tellsCycle :
    ∃ problem, cycleProblem services (baseGraph graph services) (first :: others) = some problem ∧
      ∃ head ∈ (cycleOf graph services (first :: others)).head?,
        TellsCycle head (cycleOf graph services (first :: others)) problem := by
  obtain ⟨head, at_first, isCycle, _⟩ := exists_isCycle wellFormed kinds nodup listed cyclic
  obtain ⟨steps, path, _⟩ := (baseGraph graph services).exists_winds first others
  have names : ((baseGraph graph services).cyclePath (first :: others)).filterMap
      (fun place => services[place]?.map (·.name)) =
        (cycleOf graph services (first :: others) ++ [head]).map (·.name) := by
    rw [cycleOf, path, List.dropLast_concat, ← List.map_filterMap, List.filterMap_append,
      List.filterMap_cons_some at_first]
    rfl
  rw [cycleProblem, at_first, Option.map_some, names]
  exact ⟨_, rfl, head, isCycle.starts, rfl, rfl⟩

end

/-- Each cycle is told in one problem. -/
theorem exists_cycles : ∃ cycles : List (List (ServiceType ν)),
    (∀ cycle, cycle ∈ cycles ↔ ∃ head, IsCycle graph services head cycle) ∧
    cycles.Pairwise List.Disjoint ∧
    List.Forall₂ (fun problem cycle => ∃ head ∈ cycle.head?, TellsCycle head cycle problem)
      (cycleProblems services (baseGraph graph services)) cycles := by
  have isCycle_of {component : List Nat} (member : component ∈
      (baseGraph graph services).components.filter (baseGraph graph services).isCyclic) :
      ∃ head, IsCycle graph services head (cycleOf graph services component) ∧
        ∀ place service, services[place]? = some service →
          (service ∈ cycleOf graph services component ↔ place ∈ component) := by
    obtain ⟨listed, cyclic⟩ := List.mem_filter.mp member
    cases component with
    | nil => cases cyclic
    | cons first others =>
        obtain ⟨head, _, found⟩ := exists_isCycle wellFormed kinds nodup listed cyclic
        exact ⟨head, found⟩
  refine ⟨((baseGraph graph services).components.filter (baseGraph graph services).isCyclic).map
    (cycleOf graph services), fun cycle => ?_, ?_, ?_⟩
  · rw [List.mem_map]
    constructor
    · rintro ⟨component, member, rfl⟩
      obtain ⟨head, isCycle, _⟩ := isCycle_of member
      exact ⟨head, isCycle⟩
    · rintro ⟨head, isCycle⟩
      obtain ⟨place, found⟩ := List.getElem?_of_mem (isCycle.listed isCycle.head_mem)
      have on_cycle : (baseGraph graph services).OnCycle place :=
        (transGen_points_iff wellFormed kinds nodup found found).mpr
          (isCycle.reaches isCycle.head_mem)
      obtain ⟨_, points, _⟩ := TransGen.head'_iff.mp on_cycle
      obtain ⟨component, listed, inside⟩ :=
        Digraph.exists_mem_components (Digraph.lt_size_of_points points)
      have member := List.mem_filter.mpr
        ⟨listed, (Digraph.isCyclic_iff listed inside).mpr on_cycle⟩
      obtain ⟨head', isCycle', at_place⟩ := isCycle_of member
      exact ⟨component, member, (isCycle.eq_of_mem (unique_inherits wellFormed kinds nodup) isCycle'
        ((at_place place head found).mpr inside)).symm⟩
  · rw [List.pairwise_map]
    have apart := (List.nodup_flatten.mp (baseGraph graph services).nodup_flatten_components).2
    refine (apart.sublist List.filter_sublist).imp_of_mem fun member member' disjoint => ?_
    obtain ⟨_, isCycle, at_place⟩ := isCycle_of member
    obtain ⟨_, _, at_place'⟩ := isCycle_of member'
    intro service in_cycle in_cycle'
    obtain ⟨place, found⟩ := List.getElem?_of_mem (isCycle.listed in_cycle)
    exact disjoint ((at_place place service found).mp in_cycle)
      ((at_place' place service found).mp in_cycle')
  · refine List.forall₂_filterMap_map fun component member => ?_
    obtain ⟨listed, cyclic⟩ := List.mem_filter.mp member
    cases component with
    | nil => cases cyclic
    | cons first others => exact exists_tellsCycle wellFormed kinds nodup listed cyclic

end

end ServiceType
end IdlSchema
