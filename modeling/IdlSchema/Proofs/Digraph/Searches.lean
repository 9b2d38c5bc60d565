import Mathlib.Logic.Relation
import Mathlib.Tactic
import IdlSchema.Digraph

/-!
# Depth-first searches for components

A node points at its successors and reaches whatever they lead to.  Only nodes of the graph point
anywhere.  Two nodes are connected when each can be reached from the other.

A search has some active nodes, from which it is searching on.  Of the nodes on its stack, each
reaches those above it and an active one at or below it, and nodes that are no longer active point
only at nodes that were met.  So when a node is the lowest that the nodes above it on the stack can
reach, these are its component: they reach one another, and otherwise they point only into
components that are known already.
-/

namespace IdlSchema
namespace Digraph

/-- One node points at another. -/
def Points (graph : Digraph) (a b : Nat) : Prop :=
  b ∈ graph.successors a

/-- One node can be reached from another in any number of steps. -/
def Reaches (graph : Digraph) : Nat → Nat → Prop :=
  Relation.ReflTransGen graph.Points

/-- A node can be reached from itself in at least one step. -/
def OnCycle (graph : Digraph) (node : Nat) : Prop :=
  Relation.TransGen graph.Points node node

theorem lt_size_of_points {graph : Digraph} {a b : Nat} (points : graph.Points a b) :
    a < graph.size := by
  by_contra outside
  have empty : graph.successors a = [] := by
    simp only [successors, List.getD_eq_getElem?_getD]
    rw [List.getElem?_eq_none (Nat.le_of_not_lt outside)]
    rfl
  rw [Points, empty] at points
  exact List.not_mem_nil points

/-- Two nodes can be reached from one another. -/
def Connected (graph : Digraph) (a b : Nat) : Prop :=
  graph.Reaches a b ∧ graph.Reaches b a

namespace Connected

variable {graph : Digraph}

theorem symm {a b : Nat} (connected : graph.Connected a b) : graph.Connected b a :=
  ⟨connected.2, connected.1⟩

theorem trans {a b c : Nat} (first : graph.Connected a b) (second : graph.Connected b c) :
    graph.Connected a c :=
  ⟨first.1.trans second.1, second.2.trans first.2⟩

/-- What is connected with a node of the graph is a node of the graph. -/
theorem lt_size {a b : Nat} (connected : graph.Connected a b) (inside : a < graph.size) :
    b < graph.size := by
  rcases Relation.ReflTransGen.cases_head connected.2 with same | ⟨next, points, _⟩
  · exact same ▸ inside
  · exact lt_size_of_points points

end Connected

@[simp]
theorem mem_ascending {graph : Digraph} {nodes : List Nat} {node : Nat} :
    node ∈ graph.ascending nodes ↔ node < graph.size ∧ node ∈ nodes := by
  simp [ascending]

theorem ascending_perm {graph : Digraph} {nodes : List Nat} (nodup : nodes.Nodup)
    (inside : ∀ node ∈ nodes, node < graph.size) : (graph.ascending nodes).Perm nodes := by
  have nodup' : (graph.ascending nodes).Nodup := List.nodup_range.filter _
  rw [List.perm_ext_iff_of_nodup nodup' nodup]
  intro node
  exact mem_ascending.trans (and_iff_right_of_imp (inside node))

theorem pairwise_ascending (graph : Digraph) (nodes : List Nat) :
    (graph.ascending nodes).Pairwise (· < ·) :=
  List.pairwise_lt_range.filter _

end Digraph
end IdlSchema

/-! # Searches and their stacks -/

namespace IdlSchema
namespace Digraph

/--
Components are listed leaves first: the nodes of each reach one another, and of the nodes of the
graph they point only at each other and at nodes of components before.
-/
inductive LeavesFirst (graph : Digraph) : List (List Nat) → Prop where
  | nil : LeavesFirst graph []
  | concat {components : List (List Nat)} {component : List Nat} :
      LeavesFirst graph components → component ≠ [] → component.Pairwise (· < ·) →
      (∀ a ∈ component, ∀ b ∈ component, graph.Reaches a b) →
      (∀ a ∈ component, ∀ b, graph.Points a b → b < graph.size →
        b ∈ component ∨ b ∈ components.flatten) →
      LeavesFirst graph (components ++ [component])

namespace Search

variable {graph : Digraph} {active : List Nat} {node : Nat}

/-- A node was met. -/
def Met (search : Search) (node : Nat) : Prop :=
  ∃ place, search.places[node]? = some (some place)

/-- A node of the graph was not met. -/
def Unmet (search : Search) (node : Nat) : Prop :=
  search.places[node]? = some none

/-- The place of a node among those that were met. -/
def place (search : Search) (node : Nat) : Nat :=
  (search.places.getD node none).getD 0

theorem place_of_getElem? {search : Search} {place : Nat}
    (found : search.places[node]? = some (some place)) : search.place node = place := by
  rw [Search.place, List.getD_eq_getElem?_getD, found]
  rfl

theorem not_met_of_unmet {search : Search} (unmet : search.Unmet node) : ¬ search.Met node := by
  rintro ⟨place, found⟩
  cases unmet.symm.trans found

/-- What holds of a search that is searching on from some nodes. -/
structure Sound (graph : Digraph) (active : List Nat) (search : Search) : Prop where
  length : search.places.length = graph.size
  count : search.met = (search.stack ++ search.components.flatten).length
  nodup : (search.stack ++ search.components.flatten).Nodup
  met_iff : ∀ node, search.Met node ↔ node ∈ search.stack ∨ node ∈ search.components.flatten
  place_lt : ∀ node ∈ search.stack, search.place node < search.met
  ordered : search.stack.Pairwise fun upper lower =>
    search.place lower < search.place upper ∧ graph.Reaches lower upper
  waits : ∀ root ∈ active, root ∈ search.stack
  leads : ∀ node ∈ search.stack, ∃ root ∈ active,
    search.place root ≤ search.place node ∧ graph.Reaches node root
  finished : ∀ node, search.Met node → node ∉ active →
    ∀ next, graph.Points node next → next < graph.size → search.Met next
  components : graph.LeavesFirst search.components

namespace Sound

variable {search : Search}

theorem met_of_mem_stack (sound : search.Sound graph active) (member : node ∈ search.stack) :
    search.Met node :=
  (sound.met_iff node).mpr (.inl member)

theorem lt_size_of_met (sound : search.Sound graph active) (met : search.Met node) :
    node < graph.size := by
  obtain ⟨place, found⟩ := met
  exact sound.length ▸ (List.getElem?_eq_some_iff.mp found).1

/-- As long as a node was not met, fewer nodes were met than there are. -/
theorem met_lt_size (sound : search.Sound graph active) (unmet : search.Unmet node) :
    search.met < graph.size := by
  have known : ∀ other ∈ search.stack ++ search.components.flatten, search.Met other := by
    intro other member
    exact (sound.met_iff other).mpr (List.mem_append.mp member)
  have fresh : node ∉ search.stack ++ search.components.flatten :=
    fun member => not_met_of_unmet unmet (known node member)
  have inside : node :: (search.stack ++ search.components.flatten) ⊆ List.range graph.size := by
    intro other member
    rw [List.mem_range]
    rcases List.mem_cons.mp member with rfl | member
    · exact sound.length ▸ (List.getElem?_eq_some_iff.mp unmet).1
    · exact sound.lt_size_of_met (known other member)
  have bound := ((List.nodup_cons.mpr ⟨fresh, sound.nodup⟩).subperm inside).length_le
  rw [List.length_cons, List.length_range, ← sound.count] at bound
  exact bound

end Sound

/-- A search has gone on from another, with new nodes on the stack. -/
structure Grows (before after : Search) (new : List Nat) : Prop where
  stack : after.stack = new ++ before.stack
  met : ∀ node, before.Met node → after.Met node
  place : ∀ node, before.Met node → after.place node = before.place node
  count : before.met ≤ after.met

namespace Grows

theorem refl (search : Search) : Grows search search [] :=
  ⟨rfl, fun _ met => met, fun _ _ => rfl, le_rfl⟩

theorem trans {a b c : Search} {new new' : List Nat} (first : Grows a b new)
    (second : Grows b c new') : Grows a c (new' ++ new) where
  stack := by rw [second.stack, first.stack, List.append_assoc]
  met node met := second.met node (first.met node met)
  place node met := (second.place node (first.met node met)).trans (first.place node met)
  count := first.count.trans second.count

theorem mem_stack {before after : Search} {new : List Nat} (grows : Grows before after new)
    (member : node ∈ before.stack) : node ∈ after.stack :=
  grows.stack ▸ List.mem_append_right new member

end Grows

/-- Of what was on the stack before, some nodes point at nothing below a place. -/
def Bounds (graph : Digraph) (before : Search) (low : Nat) (nodes : List Nat) : Prop :=
  ∀ a ∈ nodes, ∀ next, graph.Points a next → next ∈ before.stack → low ≤ before.place next

theorem Bounds.mono {before : Search} {low low' : Nat} {nodes : List Nat}
    (bounds : Bounds graph before low nodes) (le : low' ≤ low) : Bounds graph before low' nodes :=
  fun a member next points inside => le.trans (bounds a member next points inside)

/--
Searching on from a node has met it, and found the lowest place that it reaches on the stack, which
is its own unless it belongs to the component of a node that was met before.
-/
structure Connects (graph : Digraph) (active : List Nat) (before : Search) (node : Nat)
    (result : Search × Nat) : Prop where
  sound : result.1.Sound graph active
  grows : ∃ new, Grows before result.1 new ∧ Bounds graph before result.2 new
  met : result.1.Met node
  low : result.2 = before.met ∨ ∃ other ∈ result.1.stack,
    result.1.place other = result.2 ∧ graph.Reaches node other

/-- Some edges of a node have been followed since the node was met. -/
structure Follows (graph : Digraph) (active : List Nat) (node : Nat) (entered : Search)
    (seen : List Nat) (result : Search × Nat) : Prop where
  sound : result.1.Sound graph (node :: active)
  grows : ∃ new, Grows entered result.1 new ∧ Bounds graph entered result.2 new
  met : ∀ next ∈ seen, next < graph.size → result.1.Met next
  bounds : ∀ next ∈ seen, next ∈ entered.stack → result.2 ≤ entered.place next
  le_place : result.2 ≤ entered.place node
  low : ∃ other ∈ result.1.stack, result.1.place other = result.2 ∧ graph.Reaches node other

/-! ## Following edges -/

namespace Follows

variable {entered : Search} {seen : List Nat} {result : Search × Nat} {next : Nat}

/-- An edge to a node that was not met: the search goes on from there. -/
theorem connected (follows : Follows graph active node entered seen result)
    (sound : entered.Sound graph (node :: active)) (inside : node ∈ entered.stack)
    (points : graph.Points node next) (unmet : result.1.Unmet next) {inner : Search × Nat}
    (connects : Connects graph (node :: active) result.1 next inner) :
    Follows graph active node entered (seen ++ [next]) (inner.1, min result.2 inner.2) := by
  obtain ⟨new, grows, bounds⟩ := follows.grows
  obtain ⟨new', grows', bounds'⟩ := connects.grows
  have place_eq {other : Nat} (member : other ∈ entered.stack) :
      result.1.place other = entered.place other :=
    grows.place other (sound.met_of_mem_stack member)
  constructor
  case sound => exact connects.sound
  case grows =>
    refine ⟨new' ++ new, grows.trans grows', fun a member other points below => ?_⟩
    rcases List.mem_append.mp member with in_new' | in_new
    · rw [← place_eq below]
      exact (min_le_right _ _).trans (bounds' a in_new' other points (grows.mem_stack below))
    · exact (min_le_left _ _).trans (bounds a in_new other points below)
  case met =>
    intro other member lt
    rcases List.mem_append.mp member with old | last
    · exact grows'.met other (follows.met other old lt)
    · exact List.mem_singleton.mp last ▸ connects.met
  case bounds =>
    intro other member below
    rcases List.mem_append.mp member with old | last
    · exact (min_le_left _ _).trans (follows.bounds other old below)
    · rw [List.mem_singleton.mp last] at below
      exact absurd (grows.met next (sound.met_of_mem_stack below)) (not_met_of_unmet unmet)
  case le_place => exact (min_le_left _ _).trans follows.le_place
  case low =>
    rcases le_total result.2 inner.2 with le | le
    · -- The lowest node that was in reach before is still on the stack, at its place.
      obtain ⟨other, member, at_low, reaches⟩ := follows.low
      refine ⟨other, grows'.mem_stack member, ?_, reaches⟩
      rw [min_eq_left le, grows'.place other (follows.sound.met_of_mem_stack member), at_low]
    · rw [min_eq_right le]
      rcases connects.low with own | ⟨other, member, at_low, reaches⟩
      · have below := sound.place_lt node inside
        have := grows.count
        have := follows.le_place
        omega
      · exact ⟨other, member, at_low, .head points reaches⟩

/-- An edge to a node that waits on the stack. -/
theorem lowered (follows : Follows graph active node entered seen result)
    (sound : entered.Sound graph (node :: active)) (points : graph.Points node next)
    (waits : next ∈ result.1.stack) :
    Follows graph active node entered (seen ++ [next])
      (result.1, min result.2 (result.1.place next)) := by
  obtain ⟨new, grows, bounds⟩ := follows.grows
  constructor
  case sound => exact follows.sound
  case grows => exact ⟨new, grows, bounds.mono (min_le_left _ _)⟩
  case met =>
    intro other member lt
    rcases List.mem_append.mp member with old | last
    · exact follows.met other old lt
    · rw [List.mem_singleton.mp last]
      exact follows.sound.met_of_mem_stack waits
  case bounds =>
    intro other member below
    rcases List.mem_append.mp member with old | last
    · exact (min_le_left _ _).trans (follows.bounds other old below)
    · rw [List.mem_singleton.mp last] at below ⊢
      exact (min_le_right _ _).trans (grows.place next (sound.met_of_mem_stack below)).le
  case le_place => exact (min_le_left _ _).trans follows.le_place
  case low =>
    rcases min_choice result.2 (result.1.place next) with same | same <;> rw [same]
    · exact follows.low
    · exact ⟨next, waits, rfl, .single points⟩

/-- An edge to a node that does not wait, because its component is known or it is no node. -/
theorem passed (follows : Follows graph active node entered seen result)
    (known : next < graph.size → result.1.Met next) (gone : next ∉ result.1.stack) :
    Follows graph active node entered (seen ++ [next]) result := by
  obtain ⟨new, grows, bounds⟩ := follows.grows
  constructor
  case sound => exact follows.sound
  case grows => exact ⟨new, grows, bounds⟩
  case met =>
    intro other member lt
    rcases List.mem_append.mp member with old | last
    · exact follows.met other old lt
    · rw [List.mem_singleton.mp last] at lt ⊢
      exact known lt
  case bounds =>
    intro other member below
    rcases List.mem_append.mp member with old | last
    · exact follows.bounds other old below
    · rw [List.mem_singleton.mp last] at below
      exact absurd (grows.mem_stack below) gone
  case le_place => exact follows.le_place
  case low => exact follows.low

/-- One more edge, with a way to search on. -/
theorem follow (follows : Follows graph active node entered seen result)
    (sound : entered.Sound graph (node :: active)) (inside : node ∈ entered.stack)
    (points : graph.Points node next) {connect : Search → Nat → Search × Nat}
    (connects : ∀ search : Search, search.Sound graph (node :: active) →
      entered.met ≤ search.met → search.Unmet next →
      Connects graph (node :: active) search next (connect search next)) :
    Follows graph active node entered (seen ++ [next]) (Search.follow connect result next) := by
  rw [Search.follow]
  split
  · rename_i unmet
    obtain ⟨_, grows, _⟩ := follows.grows
    exact follows.connected sound inside points unmet
      (connects result.1 follows.sound grows.count unmet)
  · rename_i place found
    split
    · rename_i waits
      rw [← place_of_getElem? found]
      exact follows.lowered sound points waits
    · rename_i gone
      exact follows.passed (fun _ => ⟨place, found⟩) gone
  · rename_i absent
    have outside : graph.size ≤ next :=
      follows.sound.length ▸ List.getElem?_eq_none_iff.mp absent
    refine follows.passed (fun lt => absurd lt outside.not_gt) fun member => ?_
    exact outside.not_gt (follows.sound.lt_size_of_met (follows.sound.met_of_mem_stack member))

/-- All further edges in order. -/
theorem foldl (sound : entered.Sound graph (node :: active)) (inside : node ∈ entered.stack)
    {connect : Search → Nat → Search × Nat} (nexts : List Nat)
    (points : ∀ next ∈ nexts, graph.Points node next)
    (connects : ∀ next ∈ nexts, ∀ search : Search, search.Sound graph (node :: active) →
      entered.met ≤ search.met → search.Unmet next →
      Connects graph (node :: active) search next (connect search next))
    (follows : Follows graph active node entered seen result) :
    Follows graph active node entered (seen ++ nexts)
      (nexts.foldl (Search.follow connect) result) := by
  induction nexts generalizing seen result with
  | nil => simpa using follows
  | cons next nexts induction =>
      have first := follows.follow sound inside (points next List.mem_cons_self)
        (connects next List.mem_cons_self)
      have rest := induction (fun other member => points other (List.mem_cons_of_mem next member))
        (fun other member => connects other (List.mem_cons_of_mem next member)) first
      rwa [List.append_assoc] at rest

end Follows

/-! ## Meeting a node -/

section

variable {search : Search} {other : Nat}

theorem lt_length_of_unmet (unmet : search.Unmet node) : node < search.places.length :=
  (List.getElem?_eq_some_iff.mp unmet).1

theorem place_enter_self (unmet : search.Unmet node) :
    (search.enter node).place node = search.met :=
  place_of_getElem? (List.getElem?_set_self (lt_length_of_unmet unmet))

theorem place_enter_of_ne (differ : other ≠ node) :
    (search.enter node).place other = search.place other := by
  simp [Search.place, enter, List.getElem?_set_ne differ.symm]

theorem met_enter_iff (unmet : search.Unmet node) :
    (search.enter node).Met other ↔ other = node ∨ search.Met other := by
  by_cases same : other = node
  · subst same
    exact iff_of_true ⟨_, List.getElem?_set_self (lt_length_of_unmet unmet)⟩ (.inl rfl)
  · simp [Met, enter, List.getElem?_set_ne (Ne.symm same), same]

theorem ne_of_met (unmet : search.Unmet node) (met : search.Met other) : other ≠ node := by
  rintro rfl
  exact not_met_of_unmet unmet met

theorem grows_enter (unmet : search.Unmet node) : Grows search (search.enter node) [node] where
  stack := rfl
  met _ met := (met_enter_iff unmet).mpr (.inr met)
  place _ met := place_enter_of_ne (ne_of_met unmet met)
  count := Nat.le_succ _

/-- A node that was met has the active nodes below it on the stack, which reach it. -/
theorem Sound.enter (sound : search.Sound graph active) (unmet : search.Unmet node)
    (reached : ∀ root ∈ active, graph.Reaches root node) :
    (search.enter node).Sound graph (node :: active) := by
  have grows := grows_enter unmet
  have place_eq {other : Nat} (member : other ∈ search.stack) :
      (search.enter node).place other = search.place other :=
    grows.place other (sound.met_of_mem_stack member)
  have place_node := place_enter_self unmet
  have reaches_node {other : Nat} (member : other ∈ search.stack) : graph.Reaches other node := by
    obtain ⟨root, is_active, _, reaches⟩ := sound.leads other member
    exact reaches.trans (reached root is_active)
  constructor
  case length => exact (List.length_set ..).trans sound.length
  case count =>
    show search.met + 1 = (node :: search.stack ++ search.components.flatten).length
    rw [List.cons_append, List.length_cons, sound.count]
  case nodup =>
    refine List.nodup_cons.mpr ⟨fun member => not_met_of_unmet unmet ?_, sound.nodup⟩
    exact (sound.met_iff node).mpr (List.mem_append.mp member)
  case met_iff =>
    intro other
    rw [met_enter_iff unmet, sound.met_iff]
    simp [Search.enter, or_assoc]
  case place_lt =>
    intro other member
    show _ < search.met + 1
    rcases List.mem_cons.mp member with rfl | below
    · rw [place_node]
      exact Nat.lt_succ_self _
    · rw [place_eq below]
      exact Nat.lt_succ_of_lt (sound.place_lt other below)
  case ordered =>
    refine List.Pairwise.cons (fun other below => ?_) ?_
    · rw [place_node, place_eq below]
      exact ⟨sound.place_lt other below, reaches_node below⟩
    · refine sound.ordered.imp_of_mem fun {a b} a_mem b_mem ordered => ?_
      rwa [place_eq a_mem, place_eq b_mem]
  case waits =>
    intro root is_active
    rcases List.mem_cons.mp is_active with rfl | is_active
    · exact List.mem_cons_self
    · exact grows.mem_stack (sound.waits root is_active)
  case leads =>
    intro other member
    rcases List.mem_cons.mp member with rfl | below
    · exact ⟨other, List.mem_cons_self, le_rfl, .refl⟩
    · obtain ⟨root, is_active, le, reaches⟩ := sound.leads other below
      refine ⟨root, List.mem_cons_of_mem node is_active, ?_, reaches⟩
      rwa [place_eq (sound.waits root is_active), place_eq below]
  case finished =>
    intro other met inactive next points lt
    rw [List.mem_cons, not_or] at inactive
    have old := ((met_enter_iff unmet).mp met).resolve_left inactive.1
    exact grows.met next (sound.finished other old inactive.2 next points lt)
  case components => exact sound.components

end

end Search
end Digraph
end IdlSchema
