import IdlSchema.Proofs.Link.AlikeModels
import IdlSchema.Proofs.Link.TypedefGroups
import IdlSchema.Proofs.Rules.Inheritance
import IdlSchema.Proofs.Types.Renumbering

/-!
# Rules in another numbering

No rule asks in which order declarations stand or which places their types have.  Services that are
alike build on services that are alike, and typedefs that are alike mention typedefs that are alike,
so what keeps to all rules does so in any order and numbering.
-/

namespace IdlSchema

open Diagnostics Relation TypeGraph

/-! ## Typedefs that mention themselves -/

/-- Cycles of typedefs are reported just where a typedef mentions itself. -/
theorem TypedefType.clear_cycleProblems_iff_mentions {graph : TypeGraph}
    {typedefs : List TypedefType} (complete : Complete graph typedefs)
    (wellFormed : graph.WellFormed) (targets : graph.TargetsInside)
    (nodup : (typedefs.map (·.id)).Nodup) : Clear (cycleProblems graph typedefs) ↔
      ∀ id, ¬ TransGen graph.Mentions id id := by
  rw [clear_cycleProblems_iff]
  constructor
  · intro acyclic id cycle
    obtain ⟨_, mentions, _⟩ := TransGen.head'_iff.mp cycle
    obtain ⟨⟨place, at_id⟩, _⟩ := exists_places complete mentions
    exact acyclic place
      ((transGen_mentions_iff complete wellFormed targets nodup at_id at_id).mpr cycle)
  · intro acyclic place cycle
    obtain ⟨_, points, _⟩ := TransGen.head'_iff.mp cycle
    have inside := Digraph.lt_size_of_points points
    rw [Digraph.size, mentionGraph, List.length_map] at inside
    have at_place := place?_of_getElem? nodup (List.getElem?_eq_getElem inside)
    exact acyclic _
      ((transGen_mentions_iff complete wellFormed targets nodup at_place at_place).mp cycle)

namespace TypeGraph.Renumbers

variable {graph graph' : TypeGraph} {a b a' : TypeId}

theorem exists_part (renumbers : graph.Renumbers graph') (alike : graph.Alike graph' a a')
    (below : graph.Part b a) : ∃ b', graph'.Part b' a' ∧ graph.Alike graph' b b' := by
  induction below using ReflTransGen.head_induction_on with
  | refl => exact ⟨a', .refl, alike⟩
  | head step _ induction =>
      obtain ⟨between', below', alike'⟩ := induction
      obtain ⟨shape, found, member⟩ := step
      obtain ⟨shape', found', both⟩ := renumbers.shape?_alike alike' found
      cases both with
      | list inner =>
          rw [TypeShape.parameters, List.mem_singleton] at member
          exact ⟨_, .head ⟨_, found', List.mem_singleton_self _⟩ below', member ▸ inner⟩
      | set inner =>
          rw [TypeShape.parameters, List.mem_singleton] at member
          exact ⟨_, .head ⟨_, found', List.mem_singleton_self _⟩ below', member ▸ inner⟩
      | map key value =>
          rcases List.mem_pair.mp member with rfl | rfl
          · exact ⟨_, .head ⟨_, found', List.mem_cons_self⟩ below', key⟩
          · exact ⟨_, .head ⟨_, found', List.mem_pair.mpr (.inr rfl)⟩ below', value⟩
      | _ => exact absurd member List.not_mem_nil

theorem exists_mentions (renumbers : graph.Renumbers graph') (alike : graph.Alike graph' a a')
    (mentions : graph.Mentions a b) : ∃ b', graph'.Mentions a' b' ∧ graph.Alike graph' b b' := by
  obtain ⟨target, leads, is_typedef, below⟩ := mentions
  obtain ⟨target', leads', alike'⟩ := renumbers.exists_alias alike leads
  obtain ⟨b', below', alike''⟩ := renumbers.exists_part alike' below
  exact ⟨b', ⟨target', leads', renumbers.kind?_eq alike'' ▸ is_typedef, below'⟩, alike''⟩

/-- Where no typedef mentions itself, none does in any numbering. -/
theorem not_mentions_self (renumbers : graph.Renumbers graph')
    (acyclic : ∀ id, ¬ TransGen graph.Mentions id id) (id : TypeId) :
    ¬ TransGen graph'.Mentions id id := by
  intro cycle
  obtain ⟨_, ⟨_, leads, _⟩, _⟩ := TransGen.head'_iff.mp cycle
  obtain ⟨user', found', _⟩ := leads
  obtain ⟨id', alike⟩ := renumbers.exists_alike found'
  exact acyclic id' (@transGen_self _ _ graph'.Mentions graph.Mentions (graph'.Alike graph)
    (fun _ _ _ alike mentions => renumbers.symm.exists_mentions alike mentions)
    (fun _ _ _ alike alike' => renumbers.symm.unique alike alike') _ _ alike.symm cycle)

end TypeGraph.Renumbers

/-! ## Declarations that are alike -/

section

variable {ν : Type} {types : TypeId → TypeId → Prop} {values : ν → ν → Prop}

/-- What is the same in fields that are alike is the same in lists of them. -/
theorem Field.map_eq_of_alike {κ : Type} (key : Field ν → κ) {fields fields' : List (Field ν)}
    (alike : List.Forall₂ (Field.Alike types values) fields fields')
    (same : ∀ field field' : Field ν, field.Alike types values field' → key field' = key field) :
    fields'.map key = fields.map key := by
  induction alike with
  | nil => rfl
  | cons first _ induction => rw [List.map_cons, List.map_cons, same _ _ first, induction]

theorem Field.nodup_of_alike {fields fields' : List (Field ν)}
    (alike : List.Forall₂ (Field.Alike types values) fields fields')
    (nodup : (fields.map (·.id)).Nodup ∧ (fields.map (·.name)).Nodup) :
    (fields'.map (·.id)).Nodup ∧ (fields'.map (·.name)).Nodup := by
  rwa [Field.map_eq_of_alike _ alike fun _ _ both => both.id,
    Field.map_eq_of_alike _ alike fun _ _ both => both.name]

theorem EnumType.clear_of_alike {enum enum' : EnumType} (alike : enum.Alike types enum')
    (clear : Clear enum.problems) : Clear enum'.problems := by
  rw [clear_problems_iff] at clear ⊢
  rwa [alike.members]

theorem StructType.clear_of_alike {struct struct' : StructType ν}
    (alike : struct.Alike types values struct') (clear : Clear struct.problems) :
    Clear struct'.problems := by
  obtain ⟨differ, union⟩ := clear_problems_iff.mp clear
  have required := Field.map_eq_of_alike Field.isRequired alike.fields fun _ _ both => by
    rw [Field.isRequired, Field.isRequired, both.requiredness]
  have defaults := Field.map_eq_of_alike (·.default?.isSome) alike.fields fun field field' both => by
    have values := both.default?
    generalize field.default? = default?, field'.default? = default?' at values
    cases values <;> rfl
  have counts (list : List (Field ν)) : list.countP (·.default?.isSome) =
      (list.map (·.default?.isSome)).countP fun holds => holds := by
    rw [List.countP_map]
    rfl
  refine clear_problems_iff.mpr ⟨Field.nodup_of_alike alike.fields differ, fun is_union => ?_⟩
  obtain ⟨optional, few⟩ := union (alike.kind ▸ is_union)
  constructor
  · rw [← List.forall_mem_map (f := Field.isRequired) (P := (· = false))] at optional ⊢
    rwa [required]
  · rwa [counts, defaults, ← counts]

theorem Method.clear_of_alike {graph graph' : TypeGraph} (renumbers : graph.Renumbers graph')
    {method method' : Method ν} (alike : method.Alike (graph.Alike graph') values method')
    (clear : Clear (method.problems graph)) : Clear (method'.problems graph') := by
  obtain ⟨⟨parameters, exceptions⟩, thrown, oneWay⟩ := clear_problems_iff.mp clear
  refine clear_problems_iff.mpr ⟨⟨Field.nodup_of_alike alike.parameters parameters,
    Field.nodup_of_alike alike.exceptions exceptions⟩, fun exception' member' => ?_, fun way => ?_⟩
  · obtain ⟨exception, member, both⟩ := alike.exceptions.exists_of_mem_right member'
    rw [renumbers.isInvalid_eq both.type, renumbers.isException_eq both.type]
    exact thrown exception member
  · obtain ⟨returned, none_thrown⟩ := oneWay (alike.oneWay ▸ way)
    rw [renumbers.isVoid_eq alike.returnType, renumbers.isInvalid_eq alike.returnType]
    exact ⟨returned, List.forall₂_nil_left_iff.mp (none_thrown ▸ alike.exceptions)⟩

end

/-! ## Services that are alike -/

namespace ServiceType

variable {ν : Type} {values : ν → ν → Prop} {graph graph' : TypeGraph}
  {services services' : List (ServiceType ν)} {service base service' base' : ServiceType ν}

/-- Services have no problem just where all bases are services, none builds on itself in any number
of steps, and methods differ along chains. -/
theorem clear_problems_iff (nodup : (services.map (·.id)).Nodup) :
    Clear (problems graph services) ↔ (∀ service ∈ services, Clear (baseProblems graph service)) ∧
      (∀ service ∈ services, ¬ Ancestor graph services service service) ∧
      ∀ service ∈ services, service.methodNames.Nodup ∧
        ∀ base, Ancestor graph services service base →
          service.methodNames.Disjoint base.methodNames := by
  rw [problems, clear_append, clear_append, clear_flatMap, clear_cycleProblems_iff, clear_flatMap,
    and_assoc]
  refine and_congr_right fun _ => ?_
  constructor
  · rintro ⟨acyclic, methods⟩
    refine ⟨fun service member cycle => ?_, fun service member => ?_⟩
    · obtain ⟨place, found⟩ := List.getElem?_of_mem member
      obtain ⟨place', found', path⟩ := exists_transGen_points nodup found cycle
      have here := List.findIdx?_of_nodup nodup found
      rw [List.findIdx?_of_nodup nodup found', Option.some.injEq] at here
      exact acyclic place (here ▸ path)
    · obtain ⟨place, found⟩ := List.getElem?_of_mem member
      obtain ⟨differ, disjoint⟩ := clear_methodProblems_iff.mp
        (methods (service, place) (List.mem_zipIdx_iff_getElem?.mpr found))
      refine ⟨differ, fun base ancestor => ?_⟩
      obtain ⟨place', found', path⟩ := exists_transGen_points nodup found ancestor
      exact disjoint place'
        ((mem_ancestors_iff (single_baseGraph graph services) acyclic).mpr path) base found'
  · rintro ⟨none_itself, methods⟩
    have acyclic : ∀ place, ¬ (baseGraph graph services).OnCycle place := by
      intro place cycle
      obtain ⟨_, points, _⟩ := TransGen.head'_iff.mp cycle
      have inside := Digraph.lt_size_of_points points
      rw [Digraph.size, baseGraph, List.length_map] at inside
      have found := List.getElem?_eq_getElem inside
      exact none_itself _ (List.getElem_mem inside) (ancestor_of_transGen nodup cycle found found)
    refine ⟨acyclic, ?_⟩
    rintro ⟨service, place⟩ member
    have found := List.mem_zipIdx_iff_getElem?.mp member
    obtain ⟨differ, disjoint⟩ := methods service (List.mem_of_getElem? found)
    refine clear_methodProblems_iff.mpr ⟨differ, fun other inside base found' => ?_⟩
    exact disjoint base (ancestor_of_transGen nodup
      ((mem_ancestors (single_baseGraph graph services)).mp inside).1 found found')

theorem methodNames_of_alike {types : TypeId → TypeId → Prop}
    (alike : service.Alike types values service') : service'.methodNames = service.methodNames := by
  have methods := alike.methods
  rw [methodNames, methodNames]
  generalize service.methods = list, service'.methods = list' at methods
  induction methods with
  | nil => rfl
  | cons first _ induction =>
      rw [List.map_cons, List.map_cons, induction, Method.name, Method.name, first.header]

/-- A service builds on one of a list, behind any typedefs. -/
def BuildsOn (graph : TypeGraph) (services : List (ServiceType ν)) (service base : ServiceType ν) :
    Prop :=
  base ∈ services ∧ service.Extends graph base

/-- A service of a list that is like another. -/
def LikeIn (graph graph' : TypeGraph) (values : ν → ν → Prop) (services : List (ServiceType ν))
    (service' service : ServiceType ν) : Prop :=
  service ∈ services ∧ service.Alike (graph.Alike graph') values service'

section

variable (renumbers : graph.Renumbers graph')

include renumbers

/-- One service of a list at most is like a given one. -/
theorem LikeIn.unique (nodup : (services.map (·.id)).Nodup)
    (like : LikeIn graph graph' values services service' service)
    (like' : LikeIn graph graph' values services service' base) : service = base :=
  List.inj_on_of_nodup_map nodup like.1 like'.1 (renumbers.unique_left like.2.id like'.2.id)

/-- Services that are alike build on services that are alike. -/
theorem LikeIn.exists_base
    (alike : Corresponds (ServiceType.Alike (graph.Alike graph') values) services services')
    (like : LikeIn graph graph' values services service' service)
    (builds : BuildsOn graph' services' service' base') :
    ∃ base, BuildsOn graph services service base ∧
      LikeIn graph graph' values services base' base := by
  obtain ⟨base, member, both⟩ := alike.exists_of_mem_right builds.1
  refine ⟨base, ⟨member, ?_⟩, member, both⟩
  have bases : Option.Rel (graph.Alike graph') (service.base?.bind graph.trueType)
      (service'.base?.bind graph'.trueType) := by
    have named := like.2.base?
    generalize service.base? = base?, service'.base? = base?' at named ⊢
    cases named with
    | none => exact .none
    | some both => exact renumbers.trueType_rel both
  rw [builds.2] at bases
  rw [Extends]
  generalize service.base?.bind graph.trueType = base? at bases ⊢
  cases bases with
  | some found => rw [renumbers.unique_left found both.id]

theorem clear_of_alike (nodup : (services.map (·.id)).Nodup)
    (nodup' : (services'.map (·.id)).Nodup)
    (alike : Corresponds (ServiceType.Alike (graph.Alike graph') values) services services')
    (clear : Clear (problems graph services)) : Clear (problems graph' services') := by
  obtain ⟨bases, none_itself, methods⟩ := (clear_problems_iff nodup).mp clear
  have step : ∀ service' base' service, LikeIn graph graph' values services service' service →
      BuildsOn graph' services' service' base' → ∃ base, BuildsOn graph services service base ∧
        LikeIn graph graph' values services base' base :=
    fun _ _ _ => LikeIn.exists_base renumbers alike
  refine (clear_problems_iff nodup').mpr ⟨fun service' member' => ?_, fun service' member' cycle => ?_,
    fun service' member' => ?_⟩
  · obtain ⟨service, member, both⟩ := alike.exists_of_mem_right member'
    have fine := clear_baseProblems_iff.mp (bases service member)
    refine clear_baseProblems_iff.mpr fun base' found' => ?_
    have named := both.base?
    rw [found'] at named
    generalize found : service.base? = base? at named
    cases named with
    | some same =>
        rw [renumbers.isService_eq same, renumbers.isInvalid_eq same]
        exact fine _ found
  · obtain ⟨service, member, both⟩ := alike.exists_of_mem_right member'
    have like : LikeIn graph graph' values services service' service := ⟨member, both⟩
    exact none_itself service member (transGen_self step
      (fun _ _ _ like like' => LikeIn.unique renumbers nodup like like') like cycle)
  · obtain ⟨service, member, both⟩ := alike.exists_of_mem_right member'
    have like : LikeIn graph graph' values services service' service := ⟨member, both⟩
    obtain ⟨differ, disjoint⟩ := methods service member
    refine ⟨methodNames_of_alike both ▸ differ, fun base' ancestor' => ?_⟩
    obtain ⟨base, ancestor, like'⟩ := exists_transGen step like ancestor'
    rw [methodNames_of_alike both, methodNames_of_alike like'.2]
    exact disjoint base ancestor

end
end ServiceType

/-- A model that keeps to all rules does so in any order and numbering. -/
theorem Model.clear_of_alike {ν : Type} {values : ν → ν → Prop} {graph graph' : TypeGraph}
    {model model' : Model ν} (renumbers : graph.Renumbers graph')
    (nodup : (model.services.map (·.id)).Nodup) (nodup' : (model'.services.map (·.id)).Nodup)
    (alike : model.Alike (graph.Alike graph') values model') (clear : Clear (model.problems graph)) :
    Clear (model'.problems graph') := by
  obtain ⟨structs, enums, methods, services⟩ := clear_problems_iff.mp clear
  refine clear_problems_iff.mpr ⟨fun struct' member' => ?_, fun enum' member' => ?_,
    fun service' member' method' inside' => ?_,
    ServiceType.clear_of_alike renumbers nodup nodup' alike.services services⟩
  · obtain ⟨struct, member, both⟩ := alike.structs.exists_of_mem_right member'
    exact StructType.clear_of_alike both (structs struct member)
  · obtain ⟨enum, member, both⟩ := alike.enums.exists_of_mem_right member'
    exact EnumType.clear_of_alike both (enums enum member)
  · obtain ⟨service, member, both⟩ := alike.services.exists_of_mem_right member'
    obtain ⟨method, inside, both'⟩ := both.methods.exists_of_mem_right inside'
    exact Method.clear_of_alike renumbers both' (methods service member method inside)

end IdlSchema
