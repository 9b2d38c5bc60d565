import IdlSchema.Proofs.Places
import IdlSchema.Proofs.Rules.Inheritance
import IdlSchema.Proofs.Types.TrueType

/-!
# What services build on and inherit

A service names a type to build on, and typedefs lead on from there: to a service, to something else
or nowhere.  A service that builds on something else is reported; which service builds on which is
the graph of the places of services.

What a service builds on is a single walk, which ends where nothing new follows.  A method is told if
an earlier one of its service has its name, and else if a service on the walk has one with this name.
The first method with the name is blamed, in the service itself or in the nearest on the walk.
-/

namespace IdlSchema

open Relation

namespace ServiceType

variable {ν : Type}

/-- A service names a type that stands for one of some services. -/
def Inherits (graph : TypeGraph) (services : List (ServiceType ν)) (service base : ServiceType ν) :
    Prop :=
  base ∈ services ∧ ∃ id, service.base? = some id ∧ ReflTransGen graph.Alias id base.id

/-- A service names a type that stands for a type which is neither a service nor a failed one. -/
def InheritsAmiss (graph : TypeGraph) (service : ServiceType ν) : Prop :=
  ∃ id actual, service.base? = some id ∧ ReflTransGen graph.Alias id actual ∧
    graph.kind? actual ≠ some .typedef ∧ graph.kind? actual ≠ some .service ∧ actual ≠ .invalid

variable {graph : TypeGraph} {services : List (ServiceType ν)}

/-! ## Services that build on something else -/

/-- A type is a service or failed just where the type that it stands for in the end is. -/
theorem isService_or_isInvalid_iff (wellFormed : graph.WellFormed) {id : TypeId} :
    (graph.isService id || graph.isInvalid id) = true ↔ ∀ actual, ReflTransGen graph.Alias id actual →
      graph.kind? actual ≠ some .typedef → graph.kind? actual = some .service ∨ actual = .invalid := by
  rw [TypeGraph.isService, TypeGraph.isInvalid, TypeGraph.trueKind?]
  cases found : graph.trueType id with
  | none =>
      refine iff_of_true (Bool.or_true _) fun actual reaches last => ?_
      cases found.symm.trans (wellFormed.trueType_eq_some_iff.mpr ⟨reaches, last⟩)
  | some actual =>
      obtain ⟨reaches, last⟩ := wellFormed.trueType_eq_some_iff.mp found
      rw [Option.bind_some, Bool.or_eq_true, beq_iff_eq, beq_iff_eq]
      refine ⟨fun either other reaches' last' => ?_, fun all => all actual reaches last⟩
      have found' := wellFormed.trueType_eq_some_iff.mpr ⟨reaches', last'⟩
      exact Option.some.inj (found.symm.trans found') ▸ either

/-- One problem is reported of a service that builds on something else, and else none. -/
theorem baseProblems_cases (wellFormed : graph.WellFormed) (service : ServiceType ν) :
    (service.InheritsAmiss graph ∧ ∃ problem, baseProblems graph service = [problem] ∧
      problem.location = service.location) ∨
    ¬ service.InheritsAmiss graph ∧ baseProblems graph service = [] := by
  rw [baseProblems]
  cases given : service.base? with
  | none =>
      refine .inr ⟨?_, rfl⟩
      rintro ⟨_, _, given', _⟩
      cases given.symm.trans given'
  | some id =>
      dsimp only
      split
      · rename_i right
        refine .inr ⟨?_, rfl⟩
        rintro ⟨id', actual, given', reaches, last, no_service, valid⟩
        obtain rfl := Option.some.inj (given.symm.trans given')
        exact ((isService_or_isInvalid_iff wellFormed).mp right actual reaches last).elim
          no_service valid
      · rename_i amiss
        refine .inl ⟨?_, _, rfl, rfl⟩
        rw [isService_or_isInvalid_iff wellFormed] at amiss
        push Not at amiss
        obtain ⟨actual, reaches, last, no_service, valid⟩ := amiss
        exact ⟨id, actual, given, reaches, last, no_service, valid⟩

/-- The services that build on something else are reported in their order. -/
theorem exists_refused (wellFormed : graph.WellFormed) (services : List (ServiceType ν)) :
    ∃ refused : List (ServiceType ν), refused.Sublist services ∧
      (∀ service ∈ services, service ∈ refused ↔ service.InheritsAmiss graph) ∧
      List.Forall₂ (fun problem service => problem.location = service.location)
        (services.flatMap (baseProblems graph)) refused := by
  refine ⟨services.filter fun service => !(baseProblems graph service).isEmpty,
    List.filter_sublist, fun service member => ?_, ?_⟩
  · rw [List.mem_filter, and_iff_right member, Bool.not_eq_true', List.isEmpty_eq_false_iff]
    rcases baseProblems_cases wellFormed service with ⟨amiss, _, reported, _⟩ | ⟨right, none⟩
    · exact iff_of_true (reported ▸ List.cons_ne_nil _ _) amiss
    · exact iff_of_false (fun some => some none) right
  · induction services with
    | nil => exact .nil
    | cons service rest induction =>
        rw [List.flatMap_cons]
        rcases baseProblems_cases wellFormed service with
          ⟨_, problem, reported, location⟩ | ⟨_, none⟩
        · rw [List.filter_cons_of_pos (by rw [reported]; rfl), reported]
          exact .cons location induction
        · rw [List.filter_cons_of_neg (by rw [none]; exact Bool.false_ne_true), none]
          exact induction

/-! ## The services at places -/

section

variable (wellFormed : graph.WellFormed)
  (kinds : ∀ service ∈ services, graph.kind? service.id = some .service)

include wellFormed kinds

/-- Behind typedefs stands the type of a service just where they lead to it. -/
theorem inherits_eq : Inherits graph services =
    fun service base => base ∈ services ∧ service.Extends graph base := by
  funext service base
  refine propext (and_congr_right fun member => ?_)
  have no_typedef : graph.kind? base.id ≠ some .typedef := by
    rw [kinds base member]
    exact fun same => nomatch same
  rw [Extends, Option.bind_eq_some_iff]
  refine exists_congr fun id => and_congr_right fun _ => ?_
  rw [wellFormed.trueType_eq_some_iff, and_iff_left no_typedef]

variable (nodup : (services.map (·.id)).Nodup)

include nodup

theorem unique_inherits : Relator.RightUnique (Inherits graph services) := by
  intro service base base' builds builds'
  rw [inherits_eq wellFormed kinds] at builds builds'
  have same : base.id = base'.id := Option.some.inj (builds.2.symm.trans builds'.2)
  exact List.inj_on_of_nodup_map nodup builds.1 builds'.1 same

variable {service base : ServiceType ν} {place place' : Nat}
  (found : services[place]? = some service) (found' : services[place']? = some base)

include found found'

theorem points_iff_inherits :
    (baseGraph graph services).Points place place' ↔ Inherits graph services service base := by
  rw [inherits_eq wellFormed kinds, points_baseGraph_iff nodup found found']
  exact (and_iff_right (List.mem_of_getElem? found')).symm

theorem transGen_points_iff : TransGen (baseGraph graph services).Points place place' ↔
    TransGen (Inherits graph services) service base := by
  rw [inherits_eq wellFormed kinds]
  refine ⟨fun path => ancestor_of_transGen nodup path found found', fun ancestor => ?_⟩
  obtain ⟨place'', found'', path⟩ := exists_transGen_points nodup found ancestor
  have same := List.findIdx?_of_nodup nodup found'
  rw [List.findIdx?_of_nodup nodup found'', Option.some.injEq] at same
  exact same ▸ path

end

theorem exists_of_points {place place' : Nat}
    (points : (baseGraph graph services).Points place place') :
    ∃ base, services[place']? = some base := by
  have inside := Digraph.lt_size_of_points points
  rw [Digraph.size, baseGraph, List.length_map] at inside
  rw [Digraph.Points, successors_baseGraph (List.getElem?_eq_getElem inside), Option.mem_toList,
    basePlace?_eq] at points
  obtain ⟨_, _, at_base⟩ := Option.bind_eq_some_iff.mp points
  obtain ⟨inside', _⟩ := List.findIdx?_eq_some_iff_getElem.mp at_base
  exact ⟨_, List.getElem?_eq_getElem inside'⟩

theorem place_unique (nodup : (services.map (·.id)).Nodup) {service : ServiceType ν}
    {place place' : Nat} (found : services[place]? = some service)
    (found' : services[place']? = some service) : place = place' := by
  have inside := (List.getElem?_eq_some_iff.mp found).1
  exact (List.getElem?_inj inside nodup.of_map).mp (found.trans found'.symm)

end ServiceType
end IdlSchema

/-! # Methods with the names of others -/

namespace IdlSchema

open Relation

namespace ServiceType

variable {ν : Type}

/-- A method is the first one with a name. -/
def FirstNamed (methods : List (Method ν)) (name : String) (first : Method ν) : Prop :=
  first.name = name ∧ ∃ before behind, methods = before ++ first :: behind ∧
    name ∉ before.map (·.name)

/--
On the walk along what a service builds on, no service is met again, and a method is the first one
with a name in the first service that has one.
-/
structure NearestNamed (graph : TypeGraph) (services between : List (ServiceType ν))
    (service base : ServiceType ν) (name : String) (first : Method ν) : Prop where
  linked : (service :: (between ++ [base])).IsChain (Inherits graph services)
  nodup : (service :: (between ++ [base])).Nodup
  absent : ∀ other ∈ between, name ∉ other.methodNames
  first : FirstNamed base.methods name first

/-- A problem stands at a method and refers to another one. -/
structure TellsMethod (method first : Method ν) (reference : String) (problem : Diagnostic) :
    Prop where
  location : problem.location = method.location
  message : problem.message = DiagnosticKind.message .duplicateMethod (some method.name)
  related : problem.related = [⟨reference, first.location⟩]

/-- What is told of a method behind earlier ones of its service, if anything is told of it. -/
structure JudgesMethod (graph : TypeGraph) (services : List (ServiceType ν))
    (service : ServiceType ν) (earlier : List (Method ν)) (method : Method ν)
    (told? : Option Diagnostic) : Prop where
  told : told?.isSome = true ↔ method.name ∈ earlier.map (·.name) ∨
    ∃ base, TransGen (Inherits graph services) service base ∧ base ≠ service ∧
      method.name ∈ base.methodNames
  repeated : ∀ problem ∈ told?, method.name ∈ earlier.map (·.name) →
    ∃ first, FirstNamed earlier method.name first ∧
      TellsMethod method first "first declared here" problem
  inherited : ∀ problem ∈ told?, method.name ∉ earlier.map (·.name) →
    ∃ between base first, NearestNamed graph services between service base method.name first ∧
      TellsMethod method first ("inherited from `" ++ base.name ++ "`") problem

variable {graph : TypeGraph} {services : List (ServiceType ν)}

theorem find?_eq_some_iff_firstNamed {methods : List (Method ν)} {name : String}
    {first : Method ν} : methods.find? (·.name == name) = some first ↔
      FirstNamed methods name first := by
  rw [List.find?_eq_some_iff_append, FirstNamed, beq_iff_eq]
  refine and_congr_right fun _ => exists₂_congr fun before behind => and_congr_right fun _ => ?_
  simp only [Bool.not_eq_true', beq_eq_false_iff_ne, List.mem_map, not_exists, not_and]

variable (wellFormed : graph.WellFormed)
  (kinds : ∀ service ∈ services, graph.kind? service.id = some .service)
  (nodup : (services.map (·.id)).Nodup)

include wellFormed kinds nodup

variable {service : ServiceType ν} {place : Nat} (found : services[place]? = some service)

include found

/-- The services at the ancestors of a place follow one another, and none comes twice. -/
theorem isChain_ancestors :
    (service :: (ancestors (baseGraph graph services) place).filterMap (services[·]?)).IsChain
        (Inherits graph services) ∧
      (service :: (ancestors (baseGraph graph services) place).filterMap (services[·]?)).Nodup := by
  have single := single_baseGraph graph services
  have walks := walks_from_place single place le_rfl
  have inside : ∀ other ∈ place :: ancestors (baseGraph graph services) place,
      other < services.length := by
    rintro other (_ | ⟨_, member⟩)
    · exact (List.getElem?_eq_some_iff.mp found).1
    · obtain ⟨_, _, points⟩ := TransGen.tail'_iff.mp ((mem_ancestors single).mp member).1
      obtain ⟨base, found'⟩ := exists_of_points points
      exact (List.getElem?_eq_some_iff.mp found').1
  have whole : (place :: ancestors (baseGraph graph services) place).filterMap (services[·]?) =
      service :: (ancestors (baseGraph graph services) place).filterMap (services[·]?) :=
    List.filterMap_cons_some found
  rw [← whole]
  refine ⟨isChain_filterMap (fun found found' =>
    (points_iff_inherits wellFormed kinds nodup found found').mp) inside walks.linked, ?_⟩
  refine List.Nodup.filterMap (fun place place' service found found' =>
    place_unique nodup found found') (List.nodup_cons.mpr ⟨fun again => ?_, walks.nodup.1⟩)
  exact walks.nodup.2 (List.mem_singleton_self place) again

/-- An inherited method is the first with its name in the nearest service that has one. -/
theorem exists_nearestNamed {name : String} {base : ServiceType ν} {first : Method ν}
    (inherits : inherited? services (ancestors (baseGraph graph services) place) name =
      some (base, first)) :
    ∃ between, NearestNamed graph services between service base name first := by
  obtain ⟨linked, differ⟩ := isChain_ancestors wellFormed kinds nodup found
  obtain ⟨between, base', rest, split, at_base, before⟩ := List.findSome?_eq_some_iff.mp inherits
  obtain ⟨first', at_first, same⟩ := Option.map_eq_some_iff.mp at_base
  obtain ⟨rfl, rfl⟩ := Prod.mk.inj same
  have front : service :: (between ++ base' :: rest) = service :: (between ++ [base']) ++ rest := by
    rw [List.cons_append, List.append_assoc, List.singleton_append]
  rw [split, front] at linked differ
  refine ⟨between, linked.left_of_append, differ.of_append_left, fun other member => ?_,
    find?_eq_some_iff_firstNamed.mp at_first⟩
  have none_named := before other member
  rw [Option.map_eq_none_iff, method?, List.find?_eq_none] at none_named
  simpa [methodNames] using none_named

/-- A method is inherited just where some other service on the way has one with its name. -/
theorem isSome_inherited?_iff {name : String} :
    (inherited? services (ancestors (baseGraph graph services) place) name).isSome = true ↔
      ∃ base, TransGen (Inherits graph services) service base ∧ base ≠ service ∧
        name ∈ base.methodNames := by
  have single := single_baseGraph graph services
  rw [← Option.ne_none_iff_isSome, ne_eq, inherited?_eq_none_iff]
  push Not
  constructor
  · rintro ⟨other, member, base, found', named⟩
    obtain ⟨path, differ⟩ := (mem_ancestors single).mp member
    refine ⟨base, (transGen_points_iff wellFormed kinds nodup found found').mp path, ?_, named⟩
    rintro rfl
    exact differ (place_unique nodup found' found)
  · rintro ⟨base, path, differ, named⟩
    obtain ⟨_, _, step⟩ := TransGen.tail'_iff.mp path
    obtain ⟨other, found'⟩ := List.getElem?_of_mem step.1
    refine ⟨other, (mem_ancestors single).mpr
      ⟨(transGen_points_iff wellFormed kinds nodup found found').mpr path, ?_⟩, base, found', named⟩
    rintro rfl
    exact differ (Option.some.inj (found'.symm.trans found))

theorem judgesMethod (earlier : List (Method ν)) (method : Method ν) :
    JudgesMethod graph services service earlier method
      (methodProblem? services (ancestors (baseGraph graph services) place) earlier method) := by
  rw [methodProblem?]
  cases repeats : firstWithKey? (·.name) earlier method with
  | some first =>
      have named : method.name ∈ earlier.map (·.name) := by
        by_contra absent
        cases repeats.symm.trans (firstWithKey?_eq_none_iff.mpr absent)
      refine ⟨iff_of_true rfl (.inl named), fun problem told _ => ?_,
        fun problem _ absent => absurd named absent⟩
      cases told
      exact ⟨first, find?_eq_some_iff_firstNamed.mp repeats, rfl, rfl, rfl⟩
  | none =>
      have absent := firstWithKey?_eq_none_iff.mp repeats
      refine ⟨?_, fun problem _ named => absurd named absent, fun problem told _ => ?_⟩
      · rw [Option.isSome_map, isSome_inherited?_iff wellFormed kinds nodup found]
        exact (or_iff_right absent).symm
      · obtain ⟨⟨base, first⟩, inherited, rfl⟩ := Option.map_eq_some_iff.mp told
        obtain ⟨between, nearest⟩ := exists_nearestNamed wellFormed kinds nodup found inherited
        exact ⟨between, base, first, nearest, rfl, rfl, rfl⟩

end ServiceType
end IdlSchema
