import IdlSchema.Proofs.Digraph.CyclePaths
import IdlSchema.Proofs.Rules.Violations
import IdlSchema.Proofs.StateRuns
import IdlSchema.Rules.Rules

/-!
# Services that build on one another

A service builds on one other at most, so what it builds on in any number of steps is a single chain.
Where no chain comes back to a service, walking along it finds all of them, and without problems
the methods along a chain have different names.
-/

namespace IdlSchema

open Diagnostics Relation

/-! ## Single methods and bases -/

theorem clear_ite_singleton {p : Prop} [Decidable p] {problem : Diagnostic}
    (error : problem.isError = true) : Clear (if p then [] else [problem]) ↔ p := by
  split
  · rename_i holds
    exact iff_of_true clear_nil holds
  · rename_i fails
    exact iff_of_false (not_clear_of_mem List.mem_cons_self error) fails

/-- What a method is clear of; types that failed count as any types. -/
theorem Method.clear_problems_iff {ν : Type} {graph : TypeGraph} {method : Method ν} :
    Clear (method.problems graph) ↔
      (((method.parameters.map (·.id)).Nodup ∧ (method.parameters.map (·.name)).Nodup) ∧
        (method.exceptions.map (·.id)).Nodup ∧ (method.exceptions.map (·.name)).Nodup) ∧
      (∀ exception ∈ method.exceptions,
        graph.isInvalid exception.type = true ∨ graph.isException exception.type = true) ∧
      (method.oneWay = true →
        (graph.isVoid method.returnType = true ∨ graph.isInvalid method.returnType = true) ∧
          method.exceptions = []) := by
  have exceptions : Clear (method.exceptions.flatMap (exceptionProblems graph)) ↔
      ∀ exception ∈ method.exceptions,
        graph.isInvalid exception.type = true ∨ graph.isException exception.type = true := by
    rw [clear_flatMap]
    refine forall₂_congr fun exception _ => ?_
    rw [exceptionProblems, clear_ite_singleton rfl, Bool.or_eq_true]
  have oneWay : Clear (if method.oneWay then method.returnProblems graph ++ method.throwProblems
      else []) ↔ (method.oneWay = true →
        (graph.isVoid method.returnType = true ∨ graph.isInvalid method.returnType = true) ∧
          method.exceptions = []) := by
    cases method.oneWay with
    | false => exact iff_of_true clear_nil fun oneWay => Bool.noConfusion oneWay
    | true =>
        rw [if_pos rfl, clear_append, returnProblems, throwProblems, clear_ite_singleton rfl,
          clear_ite_singleton rfl, Bool.or_eq_true, List.isEmpty_iff, forall_prop_of_true rfl]
  rw [problems, clear_append, clear_append, clear_append, Field.clear_listProblems_iff,
    Field.clear_listProblems_iff, exceptions, oneWay, and_assoc]

namespace ServiceType

variable {ν : Type} {graph : TypeGraph} {services : List (ServiceType ν)}

/-- A service builds on another, behind any typedefs. -/
def Extends (graph : TypeGraph) (service base : ServiceType ν) : Prop :=
  service.base?.bind graph.trueType = some base.id

/-- The names of the methods of a service. -/
def methodNames (service : ServiceType ν) : List String :=
  service.methods.map (·.name)

/-! ## Walking along a chain -/

/-- A node points at one other at most. -/
def Single (bases : Digraph) : Prop :=
  ∀ node, (bases.successors node).length ≤ 1

theorem head?_successors_iff {bases : Digraph} (single : Single bases) {node base : Nat} :
    (bases.successors node).head? = some base ↔ bases.Points node base := by
  have short := single node
  rw [Digraph.Points]
  cases same : bases.successors node with
  | nil => simp
  | cons first others =>
      rw [same, List.length_cons] at short
      rw [List.length_eq_zero_iff.mp (Nat.le_zero.mp (Nat.le_of_succ_le_succ short))]
      simp [eq_comm]

theorem unique_of_single {bases : Digraph} (single : Single bases) :
    Relator.RightUnique bases.Points := by
  intro node base base' points points'
  have head := (head?_successors_iff single).mpr points
  exact Option.some.inj (head.symm.trans ((head?_successors_iff single).mpr points'))

/-- Some nodes follow one another up to one that points at none that was not passed before. -/
inductive Walks (bases : Digraph) : List Nat → Nat → List Nat → Prop where
  | stop {passed : List Nat} {current : Nat}
      (returns : ∀ base, bases.Points current base → base ∈ passed) : Walks bases passed current []
  | step {passed walk : List Nat} {current base : Nat} (points : bases.Points current base)
      (fresh : base ∉ passed) (onward : Walks bases (base :: passed) base walk) :
      Walks bases passed current (base :: walk)

namespace Walks

variable {bases : Digraph} {passed walk walk' : List Nat} {current : Nat}

theorem linked (walks : Walks bases passed current walk) :
    (current :: walk).IsChain bases.Points := by
  induction walks with
  | stop returns => exact .singleton _
  | step points fresh onward induction => exact .cons_cons points induction

theorem nodup (walks : Walks bases passed current walk) : walk.Nodup ∧ passed.Disjoint walk := by
  induction walks with
  | stop returns => exact ⟨List.nodup_nil, List.disjoint_nil_right _⟩
  | step points fresh onward induction =>
      obtain ⟨nodup, apart⟩ := induction
      obtain ⟨base_new, apart'⟩ := List.disjoint_cons_left.mp apart
      exact ⟨List.nodup_cons.mpr ⟨base_new, nodup⟩, List.disjoint_cons_right.mpr ⟨fresh, apart'⟩⟩

theorem ends (walks : Walks bases passed current walk) : ∀ last ∈ (current :: walk).getLast?,
    ∀ next, bases.Points last next → next ∈ passed ∨ next ∈ walk := by
  induction walks with
  | stop returns =>
      intro last at_last next points
      obtain rfl := Option.some.inj at_last
      exact .inl (returns next points)
  | step points fresh onward induction =>
      rw [List.getLast?_cons_cons]
      intro last at_last next leads
      rcases induction last at_last next leads with before | behind
      · rcases List.mem_cons.mp before with rfl | before
        · exact .inr List.mem_cons_self
        · exact .inl before
      · exact .inr (List.mem_cons_of_mem _ behind)

theorem eq (single : Single bases) (walks : Walks bases passed current walk)
    (walks' : Walks bases passed current walk') : walk = walk' := by
  induction walks generalizing walk' with
  | stop returns =>
      cases walks' with
      | stop => rfl
      | step points fresh => exact absurd (returns _ points) fresh
  | step points fresh onward induction =>
      cases walks' with
      | stop returns => exact absurd (returns _ points) fresh
      | step points' fresh' onward' =>
          obtain rfl := unique_of_single single points points'
          rw [induction onward']

end Walks

section

variable {bases : Digraph} (single : Single bases) {fuel place other : Nat}

include single

/-- A walk is not cut short if there are more steps than nodes that were not passed. -/
theorem walks_ancestorsFrom {passed : List Nat} {current : Nat} (nodup : passed.Nodup)
    (inside : ∀ node ∈ passed, node = current ∨ node < bases.size)
    (enough : bases.size < passed.length + fuel) :
    Walks bases passed current (ancestorsFrom bases fuel passed current) := by
  -- A node that points on is one of the graph, so fewer nodes were passed than there are.
  have all_inside {base : Nat} (points : bases.Points current base) :
      ∀ node ∈ passed, node < bases.size := by
    intro node member
    rcases inside node member with rfl | less
    · exact Digraph.lt_size_of_points points
    · exact less
  induction fuel generalizing passed current with
  | zero =>
      refine .stop fun base points => ?_
      have few := (nodup.subperm fun node member =>
        List.mem_range.mpr (all_inside points node member)).length_le
      rw [List.length_range] at few
      omega
  | succ fuel induction =>
      rw [ancestorsFrom]
      split
      · rename_i base found
        have points := (head?_successors_iff single).mp found
        split
        · rename_i passed_before
          refine .stop fun base' points' => ?_
          exact unique_of_single single points points' ▸ passed_before
        · rename_i fresh
          have inside' : ∀ node ∈ base :: passed, node = base ∨ node < bases.size := by
            rintro node (_ | ⟨_, member⟩)
            · exact .inl rfl
            · exact .inr (all_inside points node member)
          refine .step points fresh (induction (List.nodup_cons.mpr ⟨fresh, nodup⟩) inside' ?_ ?_)
          · rw [List.length_cons]
            omega
          · intro next points' node member
            rcases inside' node member with rfl | less
            · exact Digraph.lt_size_of_points points'
            · exact less
      · rename_i none_found
        refine .stop fun base points => ?_
        rw [(head?_successors_iff single).mpr points] at none_found
        cases none_found

theorem walks_from_place (place : Nat) (enough : bases.size ≤ fuel) :
    Walks bases [place] place (ancestorsFrom bases fuel [place] place) := by
  refine walks_ancestorsFrom single (List.nodup_singleton place) ?_ ?_
  · exact fun node member => .inl (List.mem_singleton.mp member)
  · rw [List.length_singleton]
    omega

/-- The ancestors are all that is reached, the place itself left out. -/
theorem mem_ancestors : other ∈ ancestors bases place ↔
    TransGen bases.Points place other ∧ other ≠ place := by
  have walks := walks_from_place single place le_rfl
  constructor
  · intro member
    refine ⟨?_, fun same => ?_⟩
    · exact List.rel_of_pairwise_cons
        (List.isChain_iff_pairwise.mp (walks.linked.imp fun _ _ => TransGen.single)) member
    · exact walks.nodup.2 (List.mem_singleton_self place) (same ▸ member)
  · rintro ⟨path, other_than⟩
    have reached : other ∈ place :: ancestors bases place := by
      refine mem_of_reflTransGen (unique_of_single single) walks.linked ?_ List.mem_cons_self
        path.to_reflTransGen
      intro last at_last next points
      rcases walks.ends last at_last next points with here | behind
      · exact List.mem_singleton.mp here ▸ List.mem_cons_self
      · exact List.mem_cons_of_mem _ behind
    exact (List.mem_cons.mp reached).resolve_left other_than

/-- Where nothing comes back, the ancestors are all that is reached. -/
theorem mem_ancestors_iff (acyclic : ∀ node, ¬ bases.OnCycle node) :
    other ∈ ancestors bases place ↔ TransGen bases.Points place other := by
  rw [mem_ancestors single, and_iff_left_iff_imp]
  rintro path rfl
  exact acyclic other path

end

/-! ## The graph of services -/

section

variable {place place' : Nat} {service base : ServiceType ν}

theorem successors_baseGraph (found : services[place]? = some service) :
    (baseGraph graph services).successors place = (basePlace? graph services service).toList := by
  rw [Digraph.successors, baseGraph, List.getD_eq_getElem?_getD, List.getElem?_map, found]
  rfl

theorem single_baseGraph (graph : TypeGraph) (services : List (ServiceType ν)) :
    Single (baseGraph graph services) := by
  intro place
  cases found : services[place]? with
  | some service =>
      rw [successors_baseGraph found]
      cases basePlace? graph services service with
      | none => exact Nat.zero_le 1
      | some base => exact Nat.le_refl 1
  | none =>
      rw [Digraph.successors, baseGraph, List.getD_eq_getElem?_getD, List.getElem?_map, found]
      exact Nat.zero_le 1

theorem basePlace?_eq : basePlace? graph services service =
    (service.base?.bind graph.trueType).bind fun base => services.findIdx? (·.id == base) := by
  rw [basePlace?]
  cases service.base? <;> rfl

/-- Where services differ, the graph has who builds on whom. -/
theorem points_baseGraph_iff (nodup : (services.map (·.id)).Nodup)
    (found : services[place]? = some service) (found' : services[place']? = some base) :
    (baseGraph graph services).Points place place' ↔ service.Extends graph base := by
  rw [Digraph.Points, successors_baseGraph found, Option.mem_toList, basePlace?_eq]
  constructor
  · intro at_base
    obtain ⟨id, at_type, at_id⟩ := Option.bind_eq_some_iff.mp at_base
    obtain ⟨inside, same, _⟩ := List.findIdx?_eq_some_iff_getElem.mp at_id
    rw [List.getElem?_eq_getElem inside, Option.some.injEq] at found'
    rw [Extends, at_type, ← found', eq_of_beq same]
  · intro builds
    rw [builds]
    exact List.findIdx?_of_nodup nodup found'

end

/-! ## Problems -/

theorem clear_baseProblems_iff {service : ServiceType ν} : Clear (baseProblems graph service) ↔
    ∀ base, service.base? = some base →
      graph.isService base = true ∨ graph.isInvalid base = true := by
  rw [baseProblems]
  cases service.base? with
  | none => exact iff_of_true clear_nil fun base found => absurd found.symm (Option.some_ne_none base)
  | some base =>
      dsimp only
      rw [clear_ite_singleton rfl, Bool.or_eq_true]
      exact ⟨fun right other same => Option.some.inj same ▸ right, fun all => all base rfl⟩

/-- No cycle of services is reported just where there is none. -/
theorem clear_cycleProblems_iff : Clear (cycleProblems services (baseGraph graph services)) ↔
    ∀ place, ¬ (baseGraph graph services).OnCycle place := by
  refine Digraph.clear_cyclic_iff fun first others inside => ?_
  rw [Digraph.size, baseGraph, List.length_map] at inside
  rw [cycleProblem, List.getElem?_eq_getElem inside]
  exact ⟨_, rfl, rfl⟩

theorem inherited?_eq_none_iff {places : List Nat} {name : String} :
    inherited? services places name = none ↔
      ∀ place ∈ places, ∀ base, services[place]? = some base → name ∉ base.methodNames := by
  rw [inherited?, List.findSome?_eq_none_iff]
  simp only [List.mem_filterMap, Option.map_eq_none_iff, method?, List.find?_eq_none, beq_iff_eq,
    methodNames, List.mem_map, not_exists, not_and, forall_exists_index, and_imp]
  exact ⟨fun none place inside base found => none base place inside found,
    fun none base place inside found => none place inside base found⟩

/-- The methods of a service are clear if they differ from one another and from inherited ones. -/
theorem clear_methodProblems_iff {bases : Digraph} {place : Nat} {service : ServiceType ν} :
    Clear (methodProblems services bases place service) ↔ service.methodNames.Nodup ∧
      ∀ other ∈ ancestors bases place, ∀ base, services[other]? = some base →
        service.methodNames.Disjoint base.methodNames := by
  have each : Clear (methodProblems services bases place service) ↔
      ∀ entry ∈ withEarlier service.methods,
        methodProblem? services (ancestors bases place) entry.1 entry.2 = none := by
    constructor
    · rintro clear ⟨earlier, method⟩ member
      by_contra some_problem
      obtain ⟨problem, found⟩ := Option.ne_none_iff_exists'.mp some_problem
      refine not_clear_of_mem (List.mem_filterMap.mpr ⟨_, member, found⟩) ?_ clear
      rw [methodProblem?] at found
      split at found
      · cases found
        rfl
      · obtain ⟨entry, _, rfl⟩ := Option.map_eq_some_iff.mp found
        rfl
    · intro none_found
      rw [methodProblems, List.filterMap_eq_nil_iff.mpr none_found]
      exact clear_nil
  have either (earlier : List (Method ν)) (method : Method ν) :
      methodProblem? services (ancestors bases place) earlier method = none ↔
        firstWithKey? (·.name) earlier method = none ∧
          inherited? services (ancestors bases place) method.name = none := by
    rw [methodProblem?]
    split <;> simp [*]
  have inherits (method : Method ν) :
      inherited? services (ancestors bases place) method.name = none ↔
        ∀ other ∈ ancestors bases place, ∀ base, services[other]? = some base →
          method.name ∉ base.methodNames :=
    inherited?_eq_none_iff
  calc Clear (methodProblems services bases place service)
    _ ↔ ∀ entry ∈ withEarlier service.methods,
        firstWithKey? (·.name) entry.1 entry.2 = none ∧
          inherited? services (ancestors bases place) entry.2.name = none :=
      each.trans (forall₂_congr fun entry _ => either entry.1 entry.2)
    _ ↔ service.methodNames.Nodup ∧ ∀ method ∈ service.methods,
        inherited? services (ancestors bases place) method.name = none :=
      forall₂_and.trans (and_congr nodup_iff_withEarlier.symm (forall_withEarlier fun (method : Method ν) =>
        inherited? services (ancestors bases place) method.name = none))
    _ ↔ service.methodNames.Nodup ∧ ∀ other ∈ ancestors bases place, ∀ base,
        services[other]? = some base → service.methodNames.Disjoint base.methodNames := by
      refine and_congr_right fun _ => ⟨fun absent other inside base found name own => ?_, ?_⟩
      · obtain ⟨method, member, rfl⟩ := List.mem_map.mp own
        exact (inherits method).mp (absent method member) other inside base found
      · intro disjoint method member
        exact (inherits method).mpr fun other inside base found =>
          disjoint other inside base found (List.mem_map_of_mem member)

/-! ## Chains of services -/

/-- A service is behind another on a chain of services. -/
def Ancestor (graph : TypeGraph) (services : List (ServiceType ν)) :
    ServiceType ν → ServiceType ν → Prop :=
  TransGen fun service base => base ∈ services ∧ service.Extends graph base

theorem exists_transGen_points (nodup : (services.map (·.id)).Nodup) {service base : ServiceType ν}
    {place : Nat} (found : services[place]? = some service)
    (ancestor : Ancestor graph services service base) :
    ∃ place', services[place']? = some base ∧
      TransGen (baseGraph graph services).Points place place' := by
  induction ancestor with
  | single step =>
      obtain ⟨place', found'⟩ := List.getElem?_of_mem step.1
      exact ⟨place', found', .single ((points_baseGraph_iff nodup found found').mpr step.2)⟩
  | tail _ step induction =>
      obtain ⟨between, found_between, path⟩ := induction
      obtain ⟨place', found'⟩ := List.getElem?_of_mem step.1
      exact ⟨place', found',
        path.tail ((points_baseGraph_iff nodup found_between found').mpr step.2)⟩

/-- A path through the graph of services is a chain of services. -/
theorem ancestor_of_transGen (nodup : (services.map (·.id)).Nodup)
    {service base : ServiceType ν} {place place' : Nat}
    (path : TransGen (baseGraph graph services).Points place place')
    (found : services[place]? = some service) (found' : services[place']? = some base) :
    Ancestor graph services service base := by
  induction path using TransGen.head_induction_on generalizing service with
  | single points =>
      exact .single ⟨List.mem_of_getElem? found', (points_baseGraph_iff nodup found found').mp points⟩
  | head points onward induction =>
      obtain ⟨_, points', _⟩ := TransGen.head'_iff.mp onward
      have inside := Digraph.lt_size_of_points points'
      rw [Digraph.size, baseGraph, List.length_map] at inside
      have between := List.getElem?_eq_getElem inside
      exact .head ⟨List.getElem_mem inside, (points_baseGraph_iff nodup found between).mp points⟩
        (induction between)

/-- Along a chain of services no service is met again, and the methods of all have different names. -/
theorem nodup_chain (nodup : (services.map (·.id)).Nodup)
    (clear : Clear (ServiceType.problems graph services)) {chain : List (ServiceType ν)}
    (listed : ∀ service ∈ chain, service ∈ services) (linked : chain.IsChain (Extends graph)) :
    (chain.map (·.id)).Nodup ∧ (chain.flatMap methodNames).Nodup := by
  rw [ServiceType.problems, clear_append, clear_append] at clear
  have acyclic := clear_cycleProblems_iff.mp clear.1.2
  have methods {place : Nat} {service : ServiceType ν} (found : services[place]? = some service) :=
    clear_methodProblems_iff.mp (clear_flatMap.mp clear.2 (service, place)
      (List.mem_zipIdx_iff_getElem?.mpr found))
  have behind : chain.Pairwise fun service base =>
      service ∈ services ∧ Ancestor graph services service base := by
    have steps : chain.IsChain (Ancestor graph services) :=
      linked.imp_of_mem_imp fun service base _ base_mem builds =>
        .single ⟨listed base base_mem, builds⟩
    have : IsTrans _ (Ancestor graph services) := ⟨fun _ _ _ => TransGen.trans⟩
    exact (List.isChain_iff_pairwise.mp steps).imp_of_mem fun member _ ancestor =>
      ⟨listed _ member, ancestor⟩
  constructor
  · rw [List.Nodup, List.pairwise_map]
    refine behind.imp fun {service base} ⟨service_mem, ancestor⟩ same => ?_
    obtain ⟨place, found⟩ := List.getElem?_of_mem service_mem
    obtain ⟨place', found', path⟩ := exists_transGen_points nodup found ancestor
    have here := List.findIdx?_of_nodup nodup found
    rw [same, List.findIdx?_of_nodup nodup found', Option.some.injEq] at here
    exact acyclic place (here ▸ path)
  · refine List.nodup_flatMap.mpr ⟨fun service member => ?_, ?_⟩
    · obtain ⟨place, found⟩ := List.getElem?_of_mem (listed service member)
      exact (methods found).1
    · refine behind.imp fun {service base} ⟨service_mem, ancestor⟩ => ?_
      obtain ⟨place, found⟩ := List.getElem?_of_mem service_mem
      obtain ⟨place', found', path⟩ := exists_transGen_points nodup found ancestor
      exact (methods found).2 place'
        ((mem_ancestors_iff (single_baseGraph graph services) acyclic).mpr path) base found'

end ServiceType

/-! ## Models -/

/-- What a model without problems is clear of. -/
theorem Model.clear_problems_iff {ν : Type} {model : Model ν} {graph : TypeGraph} :
    Clear (model.problems graph) ↔ (∀ struct ∈ model.structs, Clear struct.problems) ∧
      (∀ enum ∈ model.enums, Clear enum.problems) ∧
      (∀ service ∈ model.services, ∀ method ∈ service.methods, Clear (method.problems graph)) ∧
      Clear (ServiceType.problems graph model.services) := by
  simp only [problems, clear_append, clear_flatMap, and_assoc]

end IdlSchema
