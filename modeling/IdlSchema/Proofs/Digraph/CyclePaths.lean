import IdlSchema.Proofs.Digraph.Components

/-!
# Closed paths through components

The closed path through a component starts at its lowest node and goes on along edges to nodes of
the component that were not passed.  It never turns back, so it may end at a node that points at
nodes behind it alone; there it is closed off without an edge.

Where each node points at one other at most, what can be reached from a node is a single walk, and a
component that holds a cycle is nothing but this cycle: the closed path through the component passes
all of its nodes, and its last step is an edge.
-/

namespace IdlSchema
namespace Digraph

variable {graph : Digraph} {component : List Nat} {start : Nat}

/--
Nodes of a component are passed along edges, none of them twice.  From the last one an edge leads back
to the start, or else edges lead only to nodes that were passed.
-/
structure Winds (graph : Digraph) (component : List Nat) (start : Nat) (steps : List Nat) :
    Prop where
  starts : steps.head? = some start
  nodup : steps.Nodup
  inside : steps ⊆ component
  edges : steps.IsChain graph.Points
  ends : ∀ last ∈ steps.getLast?, graph.Points last start ∨
    ∀ next ∈ component, graph.Points last next → next ∈ steps

/-- A node to go on to is in the component and was not passed, unless it is the start. -/
theorem new_of_find? {path : List Nat} {current node : Nat}
    (found : (graph.successors current).find? (fun node =>
      component.contains node && (node == start || !path.contains node)) = some node)
    (goes_on : ¬ node = start) : node ∈ component ∧ node ∉ path := by
  have new := List.find?_some found
  simp only [Bool.and_eq_true, List.contains_iff_mem, Bool.or_eq_true, beq_iff_eq,
    Bool.not_eq_true', ← Bool.not_eq_true] at new
  exact ⟨new.1, new.2.resolve_left goes_on⟩

/-- Going on from the last of some nodes that were passed ends where no new node follows. -/
theorem exists_winds_cycleFrom {fuel : Nat} {path : List Nat} {current : Nat}
    (starts : path.head? = some start) (nodup : path.Nodup) (inside : path ⊆ component)
    (edges : path.IsChain graph.Points) (last : path.getLast? = some current)
    (enough : component.length < path.length + fuel) :
    ∃ steps, graph.cycleFrom component start fuel path current = steps ++ [start] ∧
      graph.Winds component start steps := by
  induction fuel generalizing path current with
  | zero => exact absurd (nodup.subperm inside).length_le (by omega)
  | succ fuel induction =>
      rw [cycleFrom]
      split
      · rename_i node found
        have points : graph.Points current node := List.mem_of_find?_eq_some found
        split
        · rename_i closes
          refine ⟨path, rfl, starts, nodup, inside, edges, fun other at_last => .inl ?_⟩
          obtain rfl := Option.some.inj (last.symm.trans at_last)
          exact closes ▸ points
        · rename_i goes_on
          obtain ⟨node_mem, fresh⟩ := new_of_find? found goes_on
          refine induction ?_ ?_ ?_ ?_ List.getLast?_concat ?_
          · rw [List.head?_append, starts, Option.some_or]
          · exact nodup.append (List.nodup_singleton node) (List.disjoint_singleton.mpr fresh)
          · exact List.append_subset.mpr ⟨inside, List.cons_subset.mpr ⟨node_mem, List.nil_subset _⟩⟩
          · refine List.isChain_append.mpr ⟨edges, .singleton node, fun a at_last b at_head => ?_⟩
            obtain rfl := Option.some.inj (last.symm.trans at_last)
            obtain rfl := Option.some.inj at_head
            exact points
          · rw [List.length_append, List.length_singleton]
            omega
      · rename_i none_new
        refine ⟨path, rfl, starts, nodup, inside, edges, fun other at_last => .inr ?_⟩
        obtain rfl := Option.some.inj (last.symm.trans at_last)
        intro next member points
        have old := List.find?_eq_none.mp none_new next points
        simp only [Bool.and_eq_true, List.contains_iff_mem, Bool.or_eq_true, beq_iff_eq,
          Bool.not_eq_true', ← Bool.not_eq_true] at old
        by_contra fresh
        exact old ⟨member, .inr fresh⟩

/-- The closed path through a component winds from its first node and comes back to it. -/
theorem exists_winds (graph : Digraph) (start : Nat) (others : List Nat) :
    ∃ steps, graph.cyclePath (start :: others) = steps ++ [start] ∧
      graph.Winds (start :: others) start steps := by
  rw [cyclePath]
  refine exists_winds_cycleFrom rfl (List.nodup_singleton start) ?_ (.singleton start) rfl ?_
  · exact List.cons_subset.mpr ⟨List.mem_cons_self, List.nil_subset _⟩
  · rw [List.length_singleton]
    omega

end Digraph
end IdlSchema

/-! # Graphs with one way on -/

namespace IdlSchema

open Relation

section

variable {α : Type} {related : α → α → Prop} {walk : List α} {a b : α}

/-- What follows an element of a walk that goes nowhere else in the end is on the walk. -/
theorem mem_of_related (unique : Relator.RightUnique related) (linked : walk.IsChain related)
    (ends : ∀ last ∈ walk.getLast?, ∀ next, related last next → next ∈ walk) (member : a ∈ walk)
    (step : related a b) : b ∈ walk := by
  obtain ⟨front, back, rfl⟩ := List.append_of_mem member
  cases back with
  | nil => exact ends a List.getLast?_concat b step
  | cons next rest =>
      obtain ⟨_, linked', _⟩ := List.isChain_append.mp linked
      obtain rfl := unique step (List.isChain_cons_cons.mp linked').1
      exact List.mem_append_right front (List.mem_cons_of_mem _ List.mem_cons_self)

theorem mem_of_reflTransGen (unique : Relator.RightUnique related) (linked : walk.IsChain related)
    (ends : ∀ last ∈ walk.getLast?, ∀ next, related last next → next ∈ walk) (member : a ∈ walk)
    (path : ReflTransGen related a b) : b ∈ walk := by
  induction path with
  | refl => exact member
  | tail _ step induction => exact mem_of_related unique linked ends induction step

/-- There is only one walk on to the first return to a start. -/
theorem eq_of_isChain_of_returns (unique : Relator.RightUnique related) {start : α}
    {walk walk' : List α} (linked : (a :: walk).IsChain related)
    (linked' : (a :: walk').IsChain related) (fresh : start ∉ walk) (fresh' : start ∉ walk')
    (returns : ∀ last ∈ (a :: walk).getLast?, related last start)
    (returns' : ∀ last ∈ (a :: walk').getLast?, related last start) : walk = walk' := by
  induction walk generalizing a walk' with
  | nil =>
      cases walk' with
      | nil => rfl
      | cons next rest =>
          obtain rfl := unique (returns a rfl) (List.isChain_cons_cons.mp linked').1
          exact absurd List.mem_cons_self fresh'
  | cons next rest induction =>
      obtain ⟨step, onward⟩ := List.isChain_cons_cons.mp linked
      cases walk' with
      | nil =>
          obtain rfl := unique (returns' a rfl) step
          exact absurd List.mem_cons_self fresh
      | cons next' rest' =>
          obtain ⟨step', onward'⟩ := List.isChain_cons_cons.mp linked'
          obtain rfl := unique step step'
          rw [List.getLast?_cons_cons] at returns returns'
          rw [induction onward onward' (mt (List.mem_cons_of_mem _) fresh)
            (mt (List.mem_cons_of_mem _) fresh') returns returns']

end

namespace Digraph

variable {graph : Digraph} {component steps : List Nat} {start : Nat}

/-! ## Enough steps for a closed path -/

/-- A path through a component ends before there are more steps than nodes. -/
theorem cycleFrom_eq {fuel fuel' : Nat} {path : List Nat} {current : Nat} (nodup : path.Nodup)
    (inside : path ⊆ component) (enough : component.length < path.length + fuel)
    (enough' : component.length < path.length + fuel') :
    graph.cycleFrom component start fuel path current =
      graph.cycleFrom component start fuel' path current := by
  have short := (nodup.subperm inside).length_le
  induction fuel generalizing path current fuel' with
  | zero => omega
  | succ fuel induction =>
      cases fuel' with
      | zero => omega
      | succ fuel' =>
          rw [cycleFrom, cycleFrom]
          split
          · rename_i node found
            split
            · rfl
            · rename_i goes_on
              obtain ⟨node_mem, fresh⟩ := new_of_find? found goes_on
              have nodup' : (path ++ [node]).Nodup :=
                nodup.append (List.nodup_singleton node) (List.disjoint_singleton.mpr fresh)
              have inside' : path ++ [node] ⊆ component := List.append_subset.mpr
                ⟨inside, List.cons_subset.mpr ⟨node_mem, List.nil_subset _⟩⟩
              have length : (path ++ [node]).length = path.length + 1 := List.length_append
              exact induction nodup' inside' (by omega) (by omega)
                (nodup'.subperm inside').length_le
          · rfl

theorem cycleFrom_eq_cyclePath {fuel : Nat} {others : List Nat}
    (enough : (start :: others).length ≤ fuel) :
    graph.cycleFrom (start :: others) start fuel [start] start =
      graph.cyclePath (start :: others) := by
  have length : [start].length = 1 := rfl
  refine cycleFrom_eq (List.nodup_singleton start) ?_ (by omega) (by omega)
  exact List.cons_subset.mpr ⟨List.mem_cons_self, List.nil_subset _⟩

/-! ## Cycles -/

/-- A walk through a cycle passes all of it and comes back along an edge. -/
theorem Winds.closes (unique : Relator.RightUnique graph.Points)
    (listed : component ∈ graph.components) (cyclic : graph.isCyclic component = true)
    (winds : graph.Winds component start steps) :
    (∀ last ∈ steps.getLast?, graph.Points last start) ∧ component ⊆ steps := by
  obtain ⟨rest, rfl⟩ := List.head?_eq_some_iff.mp winds.starts
  have start_mem : start ∈ component := winds.inside List.mem_cons_self
  have comes_back : ∀ last ∈ (start :: rest).getLast?, graph.Points last start := by
    intro last at_last
    have last_mem : last ∈ component := winds.inside (List.mem_of_getLast? at_last)
    rcases winds.ends last at_last with back | passed
    · exact back
    obtain ⟨next, points, returns⟩ :=
      TransGen.head'_iff.mp ((isCyclic_iff listed last_mem).mp cyclic)
    have next_mem : next ∈ component := by
      have connected : graph.Connected last next := ⟨.single points, returns⟩
      exact (mem_of_mem_components listed last_mem).mpr
        ⟨connected.lt_size (lt_size_of_mem_components listed last_mem), connected⟩
    -- From the next node the walk goes round without the nodes in front of it.
    obtain ⟨front, back, split⟩ := List.append_of_mem (passed next next_mem points)
    have at_end : (next :: back).getLast? = some last := by
      rw [split, List.getLast?_append_of_ne_nil front (List.cons_ne_nil next back)] at at_last
      exact at_last
    have linked : (next :: back).IsChain graph.Points := by
      have edges := winds.edges
      rw [split] at edges
      exact (List.isChain_append.mp edges).2.1
    have round : start ∈ next :: back := by
      refine mem_of_reflTransGen unique linked (fun other at_other after step => ?_)
        List.mem_cons_self ((mem_of_mem_components listed next_mem).mp start_mem).2.1
      obtain rfl := Option.some.inj (at_end.symm.trans at_other)
      exact unique points step ▸ List.mem_cons_self
    have nodup := winds.nodup
    cases front with
    | nil => exact (List.cons.inj split).1 ▸ points
    | cons first others =>
        obtain ⟨rfl, rest_eq⟩ := List.cons.inj split
        refine absurd ?_ (List.nodup_cons.mp nodup).1
        rw [rest_eq]
        exact List.mem_append_right others round
  refine ⟨comes_back, fun node member => ?_⟩
  refine mem_of_reflTransGen unique winds.edges (fun last at_last next step => ?_)
    List.mem_cons_self ((mem_of_mem_components listed start_mem).mp member).2.1
  exact unique (comes_back last at_last) step ▸ List.mem_cons_self

end Digraph
end IdlSchema
