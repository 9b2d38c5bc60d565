import IdlSchema.Proofs.Diagnostics
import IdlSchema.Proofs.Digraph.SearchRuns

/-!
# Components of a graph

The listed components are the classes of nodes that reach one another, and each node is in just
one of them.  A component is listed after all that it leads into.  It counts as cyclic exactly when
each of its nodes lies on a cycle, so what reports every cyclic component is clear just where nothing
comes back to itself.
-/

namespace IdlSchema
namespace Digraph

variable {graph : Digraph}

namespace LeavesFirst

variable {components front back : List (List Nat)} {component : List Nat}

/-- What holds of a component when it is found holds of it among all components. -/
theorem split (leavesFirst : graph.LeavesFirst components)
    (split : components = front ++ component :: back) :
    component ≠ [] ∧ component.Pairwise (· < ·) ∧
      (∀ a ∈ component, ∀ b ∈ component, graph.Reaches a b) ∧
      ∀ a ∈ component, ∀ b, graph.Points a b → b < graph.size →
        b ∈ component ∨ b ∈ front.flatten := by
  induction leavesFirst generalizing back with
  | nil => simp at split
  | concat _ nonempty ascending reaches points induction =>
      rcases List.eq_nil_or_concat back with rfl | ⟨back', last, rfl⟩
      · obtain ⟨rfl, same⟩ := List.append_inj' split rfl
        obtain rfl := (List.cons.inj same).1
        exact ⟨nonempty, ascending, reaches, points⟩
      · rw [List.concat_eq_append, ← List.cons_append, ← List.append_assoc] at split
        exact induction (List.append_inj' split rfl).1

/-- From a component one reaches no further than itself and the components before it. -/
theorem mem_of_reaches (leavesFirst : graph.LeavesFirst components)
    (split : components = front ++ component :: back) {a b : Nat}
    (member : a ∈ component ∨ a ∈ front.flatten) (reaches : graph.Reaches a b)
    (inside : b < graph.size) : b ∈ component ∨ b ∈ front.flatten := by
  induction reaches using Relation.ReflTransGen.head_induction_on with
  | refl => exact member
  | @head a next points rest induction =>
      have next_inside : next < graph.size := by
        rcases Relation.ReflTransGen.cases_head rest with rfl | ⟨_, points', _⟩
        · exact inside
        · exact lt_size_of_points points'
      refine induction ?_
      rcases member with member | member
      · exact (leavesFirst.split split).2.2.2 a member next points next_inside
      · obtain ⟨earlier, earlier_mem, a_mem⟩ := List.mem_flatten.mp member
        obtain ⟨front', back', rfl⟩ := List.append_of_mem earlier_mem
        rw [List.append_assoc, List.cons_append] at split
        rcases (leavesFirst.split split).2.2.2 a a_mem next points next_inside with here | before
        · exact .inr (List.mem_flatten.mpr ⟨earlier, earlier_mem, here⟩)
        · exact .inr (by simp only [List.flatten_append, List.mem_append, before, true_or])

end LeavesFirst

/-! ## The components of a graph -/

theorem leavesFirst_components (graph : Digraph) : graph.LeavesFirst graph.components :=
  graph.sound_searchWithin.2.2

/-- The components together list every node once. -/
theorem flatten_components_perm (graph : Digraph) :
    graph.components.flatten.Perm (List.range graph.size) :=
  graph.sound_searchWithin.2.1

theorem nodup_flatten_components (graph : Digraph) : graph.components.flatten.Nodup :=
  graph.flatten_components_perm.nodup_iff.mpr List.nodup_range

theorem exists_mem_components {node : Nat} (inside : node < graph.size) :
    ∃ component ∈ graph.components, node ∈ component :=
  List.mem_flatten.mp (graph.flatten_components_perm.mem_iff.mpr (List.mem_range.mpr inside))

theorem lt_size_of_mem_components {component : List Nat} (listed : component ∈ graph.components)
    {node : Nat} (member : node ∈ component) : node < graph.size :=
  List.mem_range.mp
    (graph.flatten_components_perm.mem_iff.mp (List.mem_flatten.mpr ⟨component, listed, member⟩))

theorem pairwise_of_mem_components {component : List Nat} (listed : component ∈ graph.components) :
    component ≠ [] ∧ component.Pairwise (· < ·) := by
  obtain ⟨front, back, split⟩ := List.append_of_mem listed
  have found := graph.leavesFirst_components.split split
  exact ⟨found.1, found.2.1⟩

theorem nodup_of_mem_components {component : List Nat} (listed : component ∈ graph.components) :
    component.Nodup :=
  (pairwise_of_mem_components listed).2.imp Nat.ne_of_lt

/-- No node is both in a component and in one before it. -/
theorem not_mem_front {front back : List (List Nat)} {component : List Nat}
    (split : graph.components = front ++ component :: back) {node : Nat}
    (member : node ∈ component) : node ∉ front.flatten := by
  have nodup := graph.nodup_flatten_components
  rw [split, List.flatten_append, List.flatten_cons, List.nodup_append] at nodup
  exact fun before => nodup.2.2 node before node (List.mem_append_left _ member) rfl

/-- A listed component is the component of each of its nodes. -/
theorem mem_of_mem_components {component : List Nat} (listed : component ∈ graph.components)
    {node other : Nat} (member : node ∈ component) :
    other ∈ component ↔ other < graph.size ∧ graph.Connected node other := by
  have leavesFirst := graph.leavesFirst_components
  obtain ⟨front, back, split⟩ := List.append_of_mem listed
  have reaches := (leavesFirst.split split).2.2.1
  constructor
  · intro other_mem
    exact ⟨lt_size_of_mem_components listed other_mem, reaches node member other other_mem,
      reaches other other_mem node member⟩
  · rintro ⟨inside, there, back_again⟩
    refine (leavesFirst.mem_of_reaches split (.inl member) there inside).resolve_right fun before => ?_
    -- From a component before one cannot come back.
    obtain ⟨earlier, earlier_mem, other_mem⟩ := List.mem_flatten.mp before
    obtain ⟨front', back', rfl⟩ := List.append_of_mem earlier_mem
    have split' : graph.components = front' ++ earlier :: (back' ++ component :: back) := by
      rw [split, List.append_assoc, List.cons_append]
    refine not_mem_front split member ?_
    rcases leavesFirst.mem_of_reaches split' (.inl other_mem) back_again
      (lt_size_of_mem_components listed member) with here | earlier_still
    · exact List.mem_flatten.mpr ⟨earlier, earlier_mem, here⟩
    · simp only [List.flatten_append, List.mem_append, earlier_still, true_or]

private theorem onCycle_of_connected_ne {a b : Nat} (connected : graph.Connected a b)
    (differ : a ≠ b) : graph.OnCycle a := by
  rcases Relation.reflTransGen_iff_eq_or_transGen.mp connected.1 with same | there
  · exact absurd same.symm differ
  · exact there.trans_left connected.2

/-- A component counts as cyclic exactly when its nodes lie on cycles. -/
theorem isCyclic_iff {component : List Nat} (listed : component ∈ graph.components) {node : Nat}
    (member : node ∈ component) : graph.isCyclic component = true ↔ graph.OnCycle node := by
  have members := @mem_of_mem_components graph component listed node
  match component, member with
  | [only], member =>
      obtain rfl := List.mem_singleton.mp member
      simp only [isCyclic, List.contains_iff_mem]
      constructor
      · exact fun points => .single points
      · intro cycle
        obtain ⟨next, points, back⟩ := Relation.TransGen.head'_iff.mp cycle
        have inside : next < graph.size := by
          rcases Relation.reflTransGen_iff_eq_or_transGen.mp back with same | onwards
          · exact same ▸ lt_size_of_points points
          · obtain ⟨_, points', _⟩ := Relation.TransGen.head'_iff.mp onwards
            exact lt_size_of_points points'
        have next_mem : next ∈ [node] := (members member).mpr ⟨inside, .single points, back⟩
        exact List.mem_singleton.mp next_mem ▸ points
  | first :: second :: others, member =>
      simp only [isCyclic, true_iff]
      have differ : first ≠ second := by
        have nodup := nodup_of_mem_components listed
        rintro rfl
        simp at nodup
      by_cases same : node = first
      · exact onCycle_of_connected_ne ((members member).mp (by simp)).2 (same ▸ differ)
      · exact onCycle_of_connected_ne ((members member).mp List.mem_cons_self).2 same

/-- Cycles are where components are cyclic. -/
theorem acyclic_iff : (∀ node, ¬ graph.OnCycle node) ↔
    ∀ component ∈ graph.components, graph.isCyclic component = false := by
  constructor
  · intro acyclic component listed
    by_contra cyclic
    rw [Bool.not_eq_false] at cyclic
    cases component with
    | nil => cases cyclic
    | cons first others =>
        exact acyclic first ((isCyclic_iff listed List.mem_cons_self).mp cyclic)
  · intro none_cyclic node cycle
    obtain ⟨_, points, _⟩ := Relation.TransGen.head'_iff.mp cycle
    obtain ⟨component, listed, member⟩ := exists_mem_components (lt_size_of_points points)
    have cyclic := (isCyclic_iff listed member).mpr cycle
    rw [none_cyclic component listed] at cyclic
    cases cyclic

/--
The components of a graph are found: a search as deep as there are nodes is never cut short, each
node is in one component, with just those that are connected with it, a component comes after all
that it points into, and it counts as cyclic just where its nodes lie on cycles.
-/
structure FindsComponents (graph : Digraph) : Prop where
  complete : ∀ fuel, graph.size ≤ fuel →
    graph.searchWithin fuel = graph.searchWithin graph.size ∧ (graph.searchWithin fuel).stack = []
  partition : graph.components.flatten.Perm (List.range graph.size)
  ascending : ∀ component ∈ graph.components, component ≠ [] ∧ component.Pairwise (· < ·)
  connected : ∀ a b, a < graph.size → b < graph.size →
    ((∃ component ∈ graph.components, a ∈ component ∧ b ∈ component) ↔
      graph.Reaches a b ∧ graph.Reaches b a)
  leavesFirst : ∀ front component back, graph.components = front ++ component :: back →
    ∀ a ∈ component, ∀ b, graph.Points a b → b < graph.size →
      b ∈ component ∨ ∃ earlier ∈ front, b ∈ earlier
  cyclic : ∀ component ∈ graph.components, ∀ node ∈ component,
    (graph.isCyclic component = true ↔ graph.OnCycle node)

theorem findsComponents (graph : Digraph) : graph.FindsComponents where
  complete fuel enough := by
    rw [searchWithin_eq enough]
    exact ⟨rfl, graph.sound_searchWithin.1⟩
  partition := graph.flatten_components_perm
  ascending _ listed := pairwise_of_mem_components listed
  connected a b a_inside b_inside := by
    constructor
    · rintro ⟨component, listed, a_mem, b_mem⟩
      exact ((mem_of_mem_components listed a_mem).mp b_mem).2
    · intro connected
      obtain ⟨component, listed, a_mem⟩ := exists_mem_components a_inside
      exact ⟨component, listed, a_mem,
        (mem_of_mem_components listed a_mem).mpr ⟨b_inside, connected⟩⟩
  leavesFirst _ component _ split a member b points inside :=
    ((graph.leavesFirst_components.split split).2.2.2 a member b points inside).imp_right
      List.mem_flatten.mp
  cyclic _ listed _ member := isCyclic_iff listed member

/-- Where every cyclic component is an error, there is no error just where there is no cycle. -/
theorem clear_cyclic_iff {problem : List Nat → Option Diagnostic}
    (reports : ∀ first others, first < graph.size →
      ∃ diagnostic, problem (first :: others) = some diagnostic ∧ diagnostic.isError = true) :
    Diagnostics.Clear ((graph.components.filter graph.isCyclic).filterMap problem) ↔
      ∀ node, ¬ graph.OnCycle node := by
  rw [acyclic_iff]
  constructor
  · intro clear component listed
    by_contra cyclic
    rw [Bool.not_eq_false] at cyclic
    cases component with
    | nil => cases cyclic
    | cons first others =>
        obtain ⟨diagnostic, reported, error⟩ :=
          reports first others (lt_size_of_mem_components listed List.mem_cons_self)
        refine Diagnostics.not_clear_of_mem ?_ error clear
        exact List.mem_filterMap.mpr ⟨_, List.mem_filter.mpr ⟨listed, cyclic⟩, reported⟩
  · intro none_cyclic
    rw [List.filter_eq_nil_iff.mpr fun component listed => ?_, List.filterMap_nil]
    · exact Diagnostics.clear_nil
    · rw [none_cyclic component listed]
      exact Bool.false_ne_true

end Digraph
end IdlSchema
