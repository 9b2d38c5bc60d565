import IdlSchema.Proofs.Digraph.Searches

/-!
# Whole searches

A node leaves the active ones when all its edges have been followed.  Either it reaches below its own
place, and waits on with the nodes above it, or it closes a component with them.  With as much fuel
as there are nodes the search from a node is complete, and a search over all nodes leaves none on
the stack.
-/

namespace IdlSchema
namespace Digraph
namespace Search

variable {graph : Digraph} {active : List Nat} {node : Nat}

/-! ## Closing a component -/

theorem splitThrough_append {above below : List Nat} (fresh : node ∉ above) :
    splitThrough node (above ++ node :: below) = (above ++ [node], below) := by
  induction above with
  | nil => simp [splitThrough]
  | cons top above induction =>
      rw [List.mem_cons, not_or] at fresh
      simp [splitThrough, Ne.symm fresh.1, induction fresh.2]

section

variable {before : Search} {result : Search × Nat}
  (follows : Follows graph active node (before.enter node) (graph.successors node) result)
  (sound : before.Sound graph active) (unmet : before.Unmet node)

include follows sound unmet

/-- A node that reaches below its own place is active no longer, and what it reaches waits. -/
theorem Follows.leave (lower : result.2 < before.met) :
    Connects graph active before node result := by
  obtain ⟨new, grows, bounds⟩ := follows.grows
  have entered := grows_enter unmet
  have place_node : result.1.place node = before.met := by
    rw [grows.place node ((met_enter_iff unmet).mpr (.inl rfl)), place_enter_self unmet]
  obtain ⟨lowest, lowest_mem, at_low, reaches_lowest⟩ := follows.low
  constructor
  case sound =>
    refine { follows.sound with
      waits := fun root is_active => follows.sound.waits root (List.mem_cons_of_mem node is_active)
      leads := fun other member => ?_
      finished := ?_ }
    · obtain ⟨root, is_active, le, reaches⟩ := follows.sound.leads other member
      rcases List.mem_cons.mp is_active with rfl | is_active
      · -- The node leads on to the lowest place it reaches, and that to a node still active.
        obtain ⟨root', is_active', le', reaches'⟩ := follows.sound.leads lowest lowest_mem
        have differ : root' ≠ root := by
          rintro rfl
          omega
        exact ⟨root', (List.mem_cons.mp is_active').resolve_left differ, by omega,
          reaches.trans (reaches_lowest.trans reaches')⟩
      · exact ⟨root, is_active, le, reaches⟩
    · intro other met inactive next points lt
      by_cases same : other = node
      · exact follows.met next (same ▸ points) lt
      · exact follows.sound.finished other met (by simp [same, inactive]) next points lt
  case grows =>
    refine ⟨new ++ [node], entered.trans grows, fun a member next points below => ?_⟩
    have place_next := entered.place next (sound.met_of_mem_stack below)
    rw [← place_next]
    rcases List.mem_append.mp member with in_new | last
    · exact bounds a in_new next points (entered.mem_stack below)
    · rw [List.mem_singleton.mp last] at points
      exact follows.bounds next points (entered.mem_stack below)
  case met => exact grows.met node ((met_enter_iff unmet).mpr (.inl rfl))
  case low => exact .inr ⟨lowest, lowest_mem, at_low, reaches_lowest⟩

/-- Where a node reaches nothing below its own place, it is a component with the nodes above it. -/
theorem Follows.leavesFirst (own : result.2 = before.met) {new : List Nat}
    (grows : Grows (before.enter node) result.1 new)
    (bounds : Bounds graph (before.enter node) result.2 new) :
    graph.LeavesFirst (result.1.components ++ [graph.ascending (new ++ [node])]) := by
  have entered := grows_enter unmet
  have stack : result.1.stack = new ++ node :: before.stack := grows.stack
  have mem_stack {other : Nat} (member : other ∈ new ++ [node]) : other ∈ result.1.stack := by
    rw [stack]
    simp only [List.mem_append, List.mem_cons, List.not_mem_nil, or_false] at member ⊢
    tauto
  have mem_component {other : Nat} :
      other ∈ graph.ascending (new ++ [node]) ↔ other ∈ new ++ [node] :=
    mem_ascending.trans (and_iff_right_of_imp fun member =>
      follows.sound.lt_size_of_met (follows.sound.met_of_mem_stack (mem_stack member)))
  have ordered := follows.sound.ordered
  rw [stack, List.pairwise_append, List.pairwise_cons] at ordered
  obtain ⟨_, ⟨above_below, _⟩, above⟩ := ordered
  have reaches_node {a : Nat} (member : a ∈ new ++ [node]) : graph.Reaches a node := by
    obtain ⟨root, is_active, _, reaches⟩ := follows.sound.leads a (mem_stack member)
    rcases List.mem_cons.mp is_active with rfl | is_active
    · exact reaches
    · exact reaches.trans (above_below root (sound.waits root is_active)).2
  have node_reaches {b : Nat} (member : b ∈ new ++ [node]) : graph.Reaches node b := by
    rcases List.mem_append.mp member with in_new | last
    · exact (above b in_new node List.mem_cons_self).2
    · exact List.mem_singleton.mp last ▸ .refl
  have inactive {a : Nat} (in_new : a ∈ new) : a ∉ node :: active := by
    intro is_active
    have waits : a ∈ node :: before.stack :=
      (List.mem_cons.mp is_active).imp_right (sound.waits a) |> List.mem_cons.mpr
    exact lt_irrefl _ (above a in_new a waits).1
  have met_next {a next : Nat} (member : a ∈ new ++ [node]) (points : graph.Points a next)
      (lt : next < graph.size) : result.1.Met next := by
    rcases List.mem_append.mp member with in_new | last
    · exact follows.sound.finished a (follows.sound.met_of_mem_stack (mem_stack member))
        (inactive in_new) next points lt
    · exact follows.met next (List.mem_singleton.mp last ▸ points) lt
  have bounded {a next : Nat} (member : a ∈ new ++ [node]) (points : graph.Points a next) :
      next ∉ before.stack := by
    intro below
    have lt := sound.place_lt next below
    rw [← entered.place next (sound.met_of_mem_stack below), ← own] at lt
    rcases List.mem_append.mp member with in_new | last
    · exact lt.not_ge (bounds a in_new next points (entered.mem_stack below))
    · rw [List.mem_singleton.mp last] at points
      exact lt.not_ge (follows.bounds next points (entered.mem_stack below))
  refine .concat follows.sound.components ?_ (pairwise_ascending graph _) ?_ ?_
  · exact List.ne_nil_of_mem
      (mem_component.mpr (List.mem_append_right new (List.mem_singleton_self node)))
  · intro a a_mem b b_mem
    exact (reaches_node (mem_component.mp a_mem)).trans (node_reaches (mem_component.mp b_mem))
  · intro a a_mem next points lt
    have member := mem_component.mp a_mem
    rcases (follows.sound.met_iff next).mp (met_next member points lt) with waits | known
    · rw [(entered.trans grows).stack, List.mem_append] at waits
      exact .inl (mem_component.mpr (waits.resolve_right (bounded member points)))
    · exact .inr known

/-- A node that reaches nothing below its own place closes its component. -/
theorem Follows.close (own : result.2 = before.met) :
    Connects graph active before node (result.1.close graph node, result.2) := by
  obtain ⟨new, grows, bounds⟩ := follows.grows
  have whole := (grows_enter unmet).trans grows
  have nodup : (new ++ [node]).Nodup := by
    have all := follows.sound.nodup
    rw [whole.stack, List.append_assoc] at all
    exact all.of_append_left
  have fresh : node ∉ new := fun member =>
    (List.nodup_append.mp nodup).2.2 node member node (List.mem_singleton_self node) rfl
  have closed : result.1.close graph node = { result.1 with
      stack := before.stack
      components := result.1.components ++ [graph.ascending (new ++ [node])] } := by
    rw [Search.close, grows.stack]
    simp only [Search.enter, splitThrough_append fresh]
  have component_perm : (graph.ascending (new ++ [node])).Perm (new ++ [node]) := by
    refine ascending_perm nodup fun other member => ?_
    refine follows.sound.lt_size_of_met (follows.sound.met_of_mem_stack ?_)
    exact whole.stack ▸ List.mem_append_left _ member
  have perm : (before.stack ++
      (result.1.components ++ [graph.ascending (new ++ [node])]).flatten).Perm
        (result.1.stack ++ result.1.components.flatten) := by
    rw [whole.stack, List.append_assoc, List.flatten_append, List.flatten_singleton,
      ← List.append_assoc]
    exact List.perm_append_comm.trans (component_perm.append_right _)
  rw [closed]
  constructor
  case sound =>
    refine { follows.sound with
      count := follows.sound.count.trans perm.length_eq.symm
      nodup := perm.nodup_iff.mpr follows.sound.nodup
      met_iff := fun other => ?_
      place_lt := fun other below => follows.sound.place_lt other (whole.mem_stack below)
      ordered := ?_
      waits := sound.waits
      leads := fun other below => ?_
      finished := fun other met inactive next points lt => ?_
      components := follows.leavesFirst sound unmet own grows bounds }
    · rw [← List.mem_append, perm.mem_iff, List.mem_append]
      exact follows.sound.met_iff other
    · exact follows.sound.ordered.sublist (whole.stack ▸ List.sublist_append_right ..)
    · obtain ⟨root, is_active, le, reaches⟩ := sound.leads other below
      refine ⟨root, is_active, ?_, reaches⟩
      have place_root := whole.place root (sound.met_of_mem_stack (sound.waits root is_active))
      have place_other := whole.place other (sound.met_of_mem_stack below)
      exact place_root.trans_le (le.trans_eq place_other.symm)
    · by_cases same : other = node
      · exact follows.met next (same ▸ points) lt
      · exact follows.sound.finished other met (by simp [same, inactive]) next points lt
  case grows =>
    exact ⟨[], ⟨rfl, whole.met, whole.place, whole.count⟩, fun _ member => by simp at member⟩
  case met => exact grows.met node ((met_enter_iff unmet).mpr (.inl rfl))
  case low => exact .inl own

end

/-! ## Whole searches -/

theorem Follows.start {before : Search} (sound : before.Sound graph active)
    (unmet : before.Unmet node) (reached : ∀ root ∈ active, graph.Reaches root node) :
    Follows graph active node (before.enter node) [] (before.enter node, before.met) where
  sound := sound.enter unmet reached
  grows := ⟨[], .refl _, fun _ member => absurd member List.not_mem_nil⟩
  met _ member := absurd member List.not_mem_nil
  bounds _ member := absurd member List.not_mem_nil
  le_place := (place_enter_self unmet).ge
  low := ⟨node, List.mem_cons_self, place_enter_self unmet, .refl⟩

theorem reaches_successor (reached : ∀ root ∈ active, graph.Reaches root node) {next : Nat}
    (points : graph.Points node next) : ∀ root ∈ node :: active, graph.Reaches root next := by
  intro root is_active
  rcases List.mem_cons.mp is_active with rfl | is_active
  · exact .single points
  · exact (reached root is_active).tail points

/-- With fuel for all nodes that were not met, the search from one of them is complete. -/
theorem connects_connect {fuel : Nat} {before : Search} (sound : before.Sound graph active)
    (unmet : before.Unmet node) (reached : ∀ root ∈ active, graph.Reaches root node)
    (enough : graph.size ≤ before.met + fuel) :
    Connects graph active before node (graph.connect fuel before node) := by
  induction fuel generalizing active before node with
  | zero =>
      have := sound.met_lt_size unmet
      omega
  | succ fuel induction =>
      have follows := Follows.foldl (sound.enter unmet reached) List.mem_cons_self
        (graph.successors node) (fun _ points => points)
        (fun next points search sound' count unmet' => induction sound' unmet'
          (reaches_successor reached points) (by
            have entered : (before.enter node).met = before.met + 1 := rfl
            omega))
        (.start sound unmet reached)
      rw [List.nil_append] at follows
      rw [connect]
      dsimp only
      split
      · rename_i own
        exact follows.close sound unmet own
      · rename_i other
        refine follows.leave sound unmet (lt_of_le_of_ne ?_ other)
        exact follows.le_place.trans_eq (place_enter_self unmet)

theorem Follows.foldl_congr (connect connect' : Search → Nat → Search × Nat) {entered : Search}
    (sound : entered.Sound graph (node :: active)) (inside : node ∈ entered.stack)
    {seen : List Nat} {result : Search × Nat} (nexts : List Nat)
    (points : ∀ next ∈ nexts, graph.Points node next)
    (connects : ∀ next ∈ nexts, ∀ search : Search, search.Sound graph (node :: active) →
      entered.met ≤ search.met → search.Unmet next →
      Connects graph (node :: active) search next (connect search next) ∧
        connect search next = connect' search next)
    (follows : Follows graph active node entered seen result) :
    nexts.foldl (Search.follow connect) result = nexts.foldl (Search.follow connect') result := by
  induction nexts generalizing seen result with
  | nil => rfl
  | cons next nexts induction =>
      have here := connects next List.mem_cons_self
      have first := follows.follow sound inside (points next List.mem_cons_self)
        (fun search sound' count unmet => (here search sound' count unmet).1)
      have same : Search.follow connect result next = Search.follow connect' result next := by
        obtain ⟨_, grows, _⟩ := follows.grows
        rw [Search.follow, Search.follow]
        split
        · rename_i unmet
          rw [(here result.1 follows.sound grows.count unmet).2]
        · rfl
        · rfl
      rw [List.foldl_cons, List.foldl_cons, ← same]
      exact induction (fun other member => points other (List.mem_cons_of_mem next member))
        (fun other member => connects other (List.mem_cons_of_mem next member)) first

/-- More fuel than for all nodes that were not met makes no difference. -/
theorem connect_congr {fuel fuel' : Nat} {before : Search} (sound : before.Sound graph active)
    (unmet : before.Unmet node) (reached : ∀ root ∈ active, graph.Reaches root node)
    (enough : graph.size ≤ before.met + fuel) (enough' : graph.size ≤ before.met + fuel') :
    graph.connect fuel before node = graph.connect fuel' before node := by
  induction fuel generalizing active before node fuel' with
  | zero =>
      have := sound.met_lt_size unmet
      omega
  | succ fuel induction =>
      cases fuel' with
      | zero =>
          have := sound.met_lt_size unmet
          omega
      | succ fuel' =>
          have same := Follows.foldl_congr (graph.connect fuel) (graph.connect fuel')
            (sound.enter unmet reached) List.mem_cons_self
            (graph.successors node) (fun _ points => points)
            (fun next points search sound' count unmet' => by
              have entered : (before.enter node).met = before.met + 1 := rfl
              have reached' := reaches_successor reached points
              exact ⟨connects_connect sound' unmet' reached' (by omega),
                induction sound' unmet' reached' (by omega) (by omega)⟩)
            (.start sound unmet reached)
          rw [connect, connect, same]

theorem sound_start (graph : Digraph) : (Search.start graph).Sound graph [] := by
  have unmet (node : Nat) : ¬ (Search.start graph).Met node := by
    rintro ⟨place, found⟩
    obtain ⟨_, _, same⟩ := List.getElem?_map .. ▸ found |> Option.map_eq_some_iff.mp
    cases same
  constructor
  case length => exact List.length_map ..
  case count => rfl
  case nodup => exact List.nodup_nil
  case met_iff => exact fun node => iff_of_false (unmet node) (by simp [Search.start])
  case place_lt => exact fun _ member => absurd member List.not_mem_nil
  case ordered => exact .nil
  case waits => exact fun _ member => absurd member List.not_mem_nil
  case leads => exact fun _ member => absurd member List.not_mem_nil
  case finished => exact fun node met => absurd met (unmet node)
  case components => exact .nil

/-- Visiting a node meets it. -/
theorem sound_visit {fuel : Nat} {search : Search} (sound : search.Sound graph [])
    (enough : graph.size ≤ fuel) (inside : node < graph.size) :
    (graph.visit fuel search node).Sound graph [] ∧ (graph.visit fuel search node).Met node ∧
      ∀ other, search.Met other → (graph.visit fuel search node).Met other := by
  rw [visit]
  split
  · rename_i unmet
    have connects := connects_connect sound unmet (fun _ member => absurd member List.not_mem_nil)
      (enough.trans (Nat.le_add_left fuel search.met))
    obtain ⟨_, grows, _⟩ := connects.grows
    exact ⟨connects.sound, connects.met, grows.met⟩
  · rename_i met
    refine ⟨sound, ?_, fun _ met => met⟩
    rw [← sound.length] at inside
    cases found : search.places[node] with
    | none => exact absurd (List.getElem?_eq_getElem inside |>.trans (congrArg some found)) met
    | some place => exact ⟨place, (List.getElem?_eq_getElem inside).trans (congrArg some found)⟩

theorem sound_foldl_visit {fuel : Nat} {search : Search} (sound : search.Sound graph [])
    (enough : graph.size ≤ fuel) (nodes : List Nat) (inside : ∀ node ∈ nodes, node < graph.size) :
    (nodes.foldl (graph.visit fuel) search).Sound graph [] ∧
      ∀ node, node ∈ nodes ∨ search.Met node → (nodes.foldl (graph.visit fuel) search).Met node := by
  induction nodes generalizing search with
  | nil => exact ⟨sound, fun node known => known.resolve_left List.not_mem_nil⟩
  | cons first nodes induction =>
      obtain ⟨sound', met, keeps⟩ := sound_visit sound enough (inside first List.mem_cons_self)
      obtain ⟨sound'', all⟩ :=
        induction sound' fun node member => inside node (List.mem_cons_of_mem first member)
      refine ⟨sound'', fun node known => all node ?_⟩
      rcases known with member | known
      · rcases List.mem_cons.mp member with rfl | member
        · exact .inr met
        · exact .inl member
      · exact .inr (keeps node known)

theorem foldl_visit_congr {fuel fuel' : Nat} {search : Search} (sound : search.Sound graph [])
    (enough : graph.size ≤ fuel) (enough' : graph.size ≤ fuel') (nodes : List Nat)
    (inside : ∀ node ∈ nodes, node < graph.size) :
    nodes.foldl (graph.visit fuel) search = nodes.foldl (graph.visit fuel') search := by
  induction nodes generalizing search with
  | nil => rfl
  | cons first nodes induction =>
      have same : graph.visit fuel search first = graph.visit fuel' search first := by
        rw [visit, visit]
        split
        · rename_i unmet
          rw [connect_congr sound unmet (fun _ member => absurd member List.not_mem_nil)
            (enough.trans (Nat.le_add_left fuel search.met))
            (enough'.trans (Nat.le_add_left fuel' search.met))]
        · rfl
      rw [List.foldl_cons, List.foldl_cons, ← same]
      exact induction (sound_visit sound enough (inside first List.mem_cons_self)).1
        fun node member => inside node (List.mem_cons_of_mem first member)

end Search

theorem lt_size_of_mem_range {graph : Digraph} : ∀ node ∈ List.range graph.size, node < graph.size :=
  fun _ => List.mem_range.mp

/-- A search that goes as deep as there are nodes is complete. -/
theorem searchWithin_eq {graph : Digraph} {fuel : Nat} (enough : graph.size ≤ fuel) :
    graph.searchWithin fuel = graph.searchWithin graph.size :=
  Search.foldl_visit_congr (Search.sound_start graph) enough le_rfl _ lt_size_of_mem_range

/-- When the search is over, each node is in a component, and none waits. -/
theorem sound_searchWithin (graph : Digraph) :
    (graph.searchWithin graph.size).stack = [] ∧
      graph.components.flatten.Perm (List.range graph.size) ∧
      graph.LeavesFirst graph.components := by
  obtain ⟨sound, met⟩ :=
    Search.sound_foldl_visit (Search.sound_start graph) le_rfl _ lt_size_of_mem_range
  have stack : (graph.searchWithin graph.size).stack = [] := by
    refine List.eq_nil_iff_forall_not_mem.mpr fun node member => ?_
    obtain ⟨root, is_active, _⟩ := sound.leads node member
    exact List.not_mem_nil is_active
  have nodup : ([] ++ graph.components.flatten).Nodup := stack ▸ sound.nodup
  have met_iff (node : Nat) : (graph.searchWithin graph.size).Met node ↔
      node ∈ [] ∨ node ∈ graph.components.flatten := stack ▸ sound.met_iff node
  rw [List.nil_append] at nodup
  refine ⟨stack, ?_, sound.components⟩
  rw [List.perm_ext_iff_of_nodup nodup List.nodup_range]
  intro node
  rw [List.mem_range]
  constructor
  · exact fun member => sound.lt_size_of_met ((met_iff node).mpr (.inr member))
  · intro inside
    have known := (met_iff node).mp (met node (.inl (List.mem_range.mpr inside)))
    exact known.resolve_left List.not_mem_nil

end Digraph
end IdlSchema
