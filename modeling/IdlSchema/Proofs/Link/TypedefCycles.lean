import IdlSchema.Link.TypedefCycle
import IdlSchema.Proofs.Diagnostics
import IdlSchema.Proofs.Digraph.Components
import IdlSchema.Proofs.Types.TrueType

/-!
# Typedefs without cycles

A typedef whose target is a typedef mentions it.  A chain of typedefs that comes back to where it
started is therefore a cycle of mentions, whose component is reported; where nothing is reported,
every chain of typedefs ends.
-/

namespace IdlSchema
namespace TypedefType

open Diagnostics TypeGraph

variable {graph : TypeGraph} {typedefs : List TypedefType}

/-- The typedefs of a model are all typedefs of the graph, with their targets. -/
structure Complete (graph : TypeGraph) (typedefs : List TypedefType) : Prop where
  aliased : ∀ typedef ∈ typedefs, graph.Alias typedef.id typedef.target
  listed : ∀ id user, graph.user? id = some user → user.kind = .typedef →
    ∃ typedef ∈ typedefs, typedef.id = id

/-- The place of the typedef that declares a type. -/
def place? (typedefs : List TypedefType) (id : TypeId) : Option Nat :=
  typedefs.findIdx? (·.id == id)

theorem exists_of_place? {id : TypeId} {place : Nat} (found : place? typedefs id = some place) :
    ∃ typedef, typedefs[place]? = some typedef ∧ typedef.id = id := by
  obtain ⟨inside, same, _⟩ := List.findIdx?_eq_some_iff_getElem.mp found
  exact ⟨typedefs[place], List.getElem?_eq_getElem inside, eq_of_beq same⟩

theorem Complete.exists_place? (complete : Complete graph typedefs) {a b : TypeId}
    (leads : graph.Alias a b) : ∃ place, place? typedefs a = some place := by
  obtain ⟨user, found, is_typedef, _⟩ := leads
  obtain ⟨typedef, member, same⟩ := complete.listed a user found is_typedef
  refine Option.isSome_iff_exists.mp ?_
  rw [place?, List.findIdx?_isSome, List.any_eq_true]
  exact ⟨typedef, member, by rw [same, beq_self_eq_true]⟩

/-- A typedef mentions the typedef that it stands for. -/
theorem Complete.points (complete : Complete graph typedefs) {a b : TypeId} {place place' : Nat}
    (leads : graph.Alias a b) (at_a : place? typedefs a = some place)
    (at_b : place? typedefs b = some place') :
    (mentionGraph graph typedefs).Points place place' := by
  obtain ⟨typedef, found, rfl⟩ := exists_of_place? at_a
  obtain ⟨typedef', found', same'⟩ := exists_of_place? at_b
  obtain rfl := leads.unique (complete.aliased typedef (List.mem_of_getElem? found))
  obtain ⟨user, at_user, _, _⟩ := complete.aliased typedef' (List.mem_of_getElem? found')
  obtain ⟨index, at_shape, _⟩ := user?_eq_some_iff.mp (same' ▸ at_user)
  simp only [Digraph.Points, Digraph.successors, mentionGraph, List.getD_eq_getElem?_getD,
    List.getElem?_map, found, Option.map_some, Option.getD_some, mentions, expression_user at_shape,
    TypeExpression.users, List.mem_eraseDups, List.mem_filterMap, List.mem_singleton]
  exact ⟨typedef.target, rfl, at_b⟩

theorem Complete.transGen_points (complete : Complete graph typedefs) {a b : TypeId}
    {place place' : Nat} (leads : Relation.TransGen graph.Alias a b)
    (at_a : place? typedefs a = some place) (at_b : place? typedefs b = some place') :
    Relation.TransGen (mentionGraph graph typedefs).Points place place' := by
  induction leads generalizing place' with
  | single last => exact .single (complete.points last at_a at_b)
  | tail _ last induction =>
      obtain ⟨between, at_between⟩ := complete.exists_place? last
      exact (induction at_between).tail (complete.points last at_between at_b)

/-- No cycle of typedefs is reported just where there is none. -/
theorem clear_cycleProblems_iff : Clear (cycleProblems graph typedefs) ↔
    ∀ place, ¬ (mentionGraph graph typedefs).OnCycle place := by
  refine Digraph.clear_cyclic_iff fun first others inside => ?_
  rw [Digraph.size, mentionGraph, List.length_map] at inside
  rw [cycleProblem, List.getElem?_eq_getElem inside]
  exact ⟨_, rfl, Diagnostic.isError_congr (Diagnostic.foldl_relatedTo _ _ _
    (.detailed .cyclicTypedef _ (Digraph.pathText _))).1⟩

/-- Where no cycle is reported, there is a type behind every type. -/
theorem Complete.exists_trueType (complete : Complete graph typedefs)
    (wellFormed : graph.WellFormed) (clear : Clear (cycleProblems graph typedefs)) (id : TypeId) :
    ∃ actual, graph.trueType id = some actual := by
  refine wellFormed.exists_trueType (fun id user found is_typedef => ?_) (fun id cycle => ?_) id
  · obtain ⟨typedef, member, same⟩ := complete.listed id user found is_typedef
    obtain ⟨user', found', _, target⟩ := complete.aliased typedef member
    obtain rfl := Option.some.inj (found.symm.trans (same ▸ found'))
    exact ⟨typedef.target, target⟩
  · obtain ⟨next, leads, _⟩ := Relation.TransGen.head'_iff.mp cycle
    obtain ⟨place, at_id⟩ := complete.exists_place? leads
    exact clear_cycleProblems_iff.mp clear place (complete.transGen_points cycle at_id at_id)

end TypedefType
end IdlSchema
