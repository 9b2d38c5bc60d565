import Mathlib
import IdlSchema.Proofs.Digraph.CyclePaths
import IdlSchema.Proofs.Link.TypedefGroups
import IdlSchema.Proofs.Places

/-!
# The walks that tell of typedef cycles

The problem of a group of typedefs that mention each other names a walk through the group.  It starts
at the first typedef of the group, goes on from each typedef to one that it mentions and that was not
named, and ends with the first typedef again.  The last step may be none, since a walk in a tangled
group can get to where only typedefs are mentioned that it has passed.
-/

namespace IdlSchema

open Diagnostics Relation TypeGraph

namespace TypedefType

/--
The message of a problem names the typedefs of a walk and then the first one again.  The walk starts
at the first typedef of a group and passes none twice, and each typedef mentions the next.
-/
structure NamesWalk (graph : TypeGraph) (group : List TypedefType) (problem : Diagnostic)
    (head : TypedefType) (walk : List TypedefType) : Prop where
  message : problem.message = DiagnosticKind.message .cyclicTypedef
    (some (Digraph.pathText ((walk ++ [head]).map (·.name))))
  lowest : group.head? = some head
  starts : walk.head? = some head
  nodup : walk.Nodup
  inside : walk ⊆ group
  mentions : walk.IsChain fun a b => graph.Mentions a.id b.id

/-- The last typedef of a walk mentions the first one. -/
def ComesBack (graph : TypeGraph) (head : TypedefType) (walk : List TypedefType) : Prop :=
  ∀ last ∈ walk.getLast?, graph.Mentions last.id head.id

/-- The last typedef of a walk mentions only typedefs of the group that the walk has passed. -/
def RunsOut (graph : TypeGraph) (group walk : List TypedefType) : Prop :=
  ∀ last ∈ walk.getLast?, ∀ next ∈ group, graph.Mentions last.id next.id → next ∈ walk

variable {graph : TypeGraph} {typedefs : List TypedefType}

/-! ## Walks of places and of typedefs -/

theorem exists_cycleProblem {first : Nat} (cycles : Digraph) (others : List Nat)
    (inside : first < typedefs.length) :
    ∃ problem, cycleProblem typedefs cycles (first :: others) = some problem := by
  rw [cycleProblem, List.getElem?_eq_getElem inside]
  exact ⟨_, rfl⟩

section

variable (complete : Complete graph typedefs) (wellFormed : graph.WellFormed)
  (targets : graph.TargetsInside) (nodup : (typedefs.map (·.id)).Nodup)

include complete wellFormed targets nodup

theorem points_iff_of_getElem? {place place' : Nat} {a b : TypedefType}
    (at_a : typedefs[place]? = some a) (at_b : typedefs[place']? = some b) :
    (mentionGraph graph typedefs).Points place place' ↔ graph.Mentions a.id b.id :=
  points_iff complete wellFormed targets (place?_of_getElem? nodup at_a)
    (place?_of_getElem? nodup at_b)

/-- A walk along the edges between places is a walk from each typedef to one that it mentions. -/
theorem isChain_mentions {places : List Nat}
    (inside : ∀ place ∈ places, place < typedefs.length)
    (edges : places.IsChain (mentionGraph graph typedefs).Points) :
    (places.filterMap (typedefs[·]?)).IsChain fun a b => graph.Mentions a.id b.id :=
  isChain_filterMap (fun found found' =>
    (points_iff_of_getElem? complete wellFormed targets nodup found found').mp) inside edges

section

variable {first : Nat} {others steps : List Nat}
  (winds : (mentionGraph graph typedefs).Winds (first :: others) first steps)
  (inside : ∀ place ∈ first :: others, place < typedefs.length) {head : TypedefType}
  (at_first : typedefs[first]? = some head)

include winds inside at_first

/-- A walk through the places of a group is a walk through its typedefs. -/
theorem namesWalk_of_winds {problem : Diagnostic}
    (path : (mentionGraph graph typedefs).cyclePath (first :: others) = steps ++ [first])
    (reported : cycleProblem typedefs (mentionGraph graph typedefs) (first :: others) =
      some problem) :
    NamesWalk graph ((first :: others).filterMap (typedefs[·]?)) problem head
      (steps.filterMap (typedefs[·]?)) := by
  constructor
  case message =>
    have names : (steps ++ [first]).filterMap (fun place => typedefs[place]?.map (·.name)) =
        (steps.filterMap (typedefs[·]?) ++ [head]).map (·.name) := by
      rw [← List.map_filterMap, List.filterMap_append, List.filterMap_cons_some at_first]
      rfl
    rw [cycleProblem, at_first, Option.map_some, Option.some.injEq, path, names] at reported
    rw [← reported]
    exact Diagnostic.message_foldl_relatedTo ..
  case lowest => rw [List.filterMap_cons_some at_first, List.head?_cons]
  case starts =>
    obtain ⟨rest, rfl⟩ := List.head?_eq_some_iff.mp winds.starts
    rw [List.filterMap_cons_some at_first, List.head?_cons]
  case nodup =>
    refine winds.nodup.filterMap fun place place' typedef found found' => ?_
    have at_place := place?_of_getElem? nodup found
    exact Option.some.inj (at_place.symm.trans (place?_of_getElem? nodup found'))
  case inside => exact List.filterMap_subset _ winds.inside
  case mentions =>
    exact isChain_mentions complete wellFormed targets nodup
      (fun place member => inside place (winds.inside member)) winds.edges

/-- The walk comes back to the first typedef, or there is no typedef left to go on to. -/
theorem ends_of_winds : ComesBack graph head (steps.filterMap (typedefs[·]?)) ∨
    RunsOut graph ((first :: others).filterMap (typedefs[·]?)) (steps.filterMap (typedefs[·]?)) := by
  obtain ⟨place, at_end⟩ : ∃ place, steps.getLast? = some place := by
    obtain ⟨rest, rfl⟩ := List.head?_eq_some_iff.mp winds.starts
    exact ⟨_, List.getLast?_eq_some_getLast (List.cons_ne_nil first rest)⟩
  have found_last {last : TypedefType}
      (at_last : last ∈ (steps.filterMap (typedefs[·]?)).getLast?) :
      typedefs[place]? = some last := by
    obtain ⟨place', at_end', found⟩ := exists_getLast?_of_filterMap
      (fun place member => inside place (winds.inside member)) at_last
    obtain rfl := Option.some.inj (at_end.symm.trans at_end')
    exact found
  rcases winds.ends place at_end with leads | passed
  · exact .inl fun last at_last => (points_iff_of_getElem? complete wellFormed targets nodup
      (found_last at_last) at_first).mp leads
  · refine .inr fun last at_last next member mentioned => ?_
    obtain ⟨place', place'_mem, found'⟩ := List.mem_filterMap.mp member
    have leads := (points_iff_of_getElem? complete wellFormed targets nodup
      (found_last at_last) found').mpr mentioned
    exact List.mem_filterMap.mpr ⟨place', passed place' place'_mem leads, found'⟩

end

/-- The problem of a group names a walk through its typedefs. -/
theorem exists_namesWalk {first : Nat} {others : List Nat}
    (listed : first :: others ∈ (mentionGraph graph typedefs).components) {problem : Diagnostic}
    (reported : cycleProblem typedefs (mentionGraph graph typedefs) (first :: others) =
      some problem) :
    ∃ head walk, NamesWalk graph ((first :: others).filterMap (typedefs[·]?)) problem head walk ∧
      (ComesBack graph head walk ∨
        RunsOut graph ((first :: others).filterMap (typedefs[·]?)) walk) := by
  obtain ⟨steps, path, winds⟩ := (mentionGraph graph typedefs).exists_winds first others
  have size : (mentionGraph graph typedefs).size = typedefs.length := List.length_map ..
  have inside : ∀ place ∈ first :: others, place < typedefs.length := fun place member =>
    size ▸ Digraph.lt_size_of_mem_components listed member
  have at_first := List.getElem?_eq_getElem (inside first List.mem_cons_self)
  exact ⟨_, steps.filterMap (typedefs[·]?),
    namesWalk_of_winds complete wellFormed targets nodup winds inside at_first path reported,
    ends_of_winds complete wellFormed targets nodup winds inside at_first⟩

end

end TypedefType

namespace FileTable

open FileDeclarations TypedefType

/--
Every problem of the kind names a walk through one of the groups of typedefs that mention each other
and themselves, and the walk ends in a certain way.
-/
def TracesCycles (linked : Linked)
    (ends : List TypedefType → TypedefType → List TypedefType → Prop) : Prop :=
  ∃ groups : List (List TypedefType),
    List.Forall₂ (fun problem group =>
        ∃ head walk, NamesWalk linked.graph group problem head walk ∧ ends group head walk)
      (linked.reported.ofKind .cyclicTypedef) groups ∧
    ∀ group ∈ groups, group.Sublist linked.model.typedefs ∧
      ∀ typedef ∈ group, TransGen linked.graph.Mentions typedef.id typedef.id ∧
        ∀ other ∈ linked.model.typedefs,
          other ∈ group ↔ ReflTransGen linked.graph.Mentions typedef.id other.id ∧
            ReflTransGen linked.graph.Mentions other.id typedef.id

/--
Linking reports each cycle of typedefs with a walk that comes back to its start, unless the walk runs
out of typedefs first.
-/
theorem tracesCycles (files : FileTable) (order : List FileId) (warnDeprecated : Bool) :
    TracesCycles (files.link order warnDeprecated) fun group head walk =>
      ComesBack (files.link order warnDeprecated).graph head walk ∨
        RunsOut (files.link order warnDeprecated).graph group walk := by
  have complete := complete_literals files order warnDeprecated
  have wellFormed := wellFormed_literals files order warnDeprecated
  have targets := targetsInside_literals files order warnDeprecated
  have nodup := nodup_typedef_ids files order warnDeprecated
  refine ⟨groups (files.literals order warnDeprecated).2
    (files.literals order warnDeprecated).1.typedefs, ?walks, fun group listed => ⟨?sublist, ?_⟩⟩
  case walks =>
    rw [ofKind_cyclicTypedef_link]
    refine List.forall₂_filterMap_map fun component member => ?_
    obtain ⟨listed, cyclic⟩ := List.mem_filter.mp member
    cases component with
    | nil => cases cyclic
    | cons first others =>
        have inside := Digraph.lt_size_of_mem_components listed List.mem_cons_self
        rw [Digraph.size, mentionGraph, List.length_map] at inside
        obtain ⟨problem, reported⟩ := exists_cycleProblem
          (mentionGraph (files.literals order warnDeprecated).2 _) others inside
        exact ⟨problem, reported,
          exists_namesWalk complete wellFormed targets nodup listed reported⟩
  case sublist =>
    obtain ⟨component, component_mem, _, rfl⟩ := mem_groups.mp listed
    refine filterMap_sublist (Digraph.pairwise_of_mem_components component_mem).2
      fun place member => ?_
    have inside := Digraph.lt_size_of_mem_components component_mem member
    rwa [Digraph.size, mentionGraph, List.length_map] at inside
  intro typedef member
  obtain ⟨_, cycle⟩ := (mem_flatten_groups complete wellFormed targets nodup).mp
    (List.mem_flatten_of_mem listed member)
  exact ⟨cycle, fun other => mem_group_iff complete wellFormed targets nodup listed member⟩

/-- Of three typedefs the first is mentioned by the second alone. -/
def tangledTypedefs : FileTable :=
  let location := .start "a.thrift"
  let named (name : String) : TypeReference := .named location name .empty
  { files := [{
      path := "a.thrift"
      includes := []
      tree := { FileTree.empty "a.thrift" with
        typedefs := [⟨.plain "A" location, named "B"⟩,
          ⟨.plain "B" location, .map location (named "C") (named "A") .empty⟩,
          ⟨.plain "C" location, named "B"⟩] } }] }

theorem names_tangledTypedefs :
    (tangledTypedefs.link [⟨0⟩] true).model.typedefs.map (·.name) = ["A", "B", "C"] := by
  cbv

theorem getElem?_tangledTypedefs {typedef : TypedefType} {place : Nat}
    (member : typedef ∈ (tangledTypedefs.link [⟨0⟩] true).model.typedefs)
    (named : ["A", "B", "C"][place]? = some typedef.name) :
    (tangledTypedefs.link [⟨0⟩] true).model.typedefs[place]? = some typedef := by
  obtain ⟨place', found⟩ := List.getElem?_of_mem member
  have named' := congrArg (·[place']?) names_tangledTypedefs
  rw [List.getElem?_map, found, Option.map_some, ← named] at named'
  have inside : place < ["A", "B", "C"].length := (List.getElem?_eq_some_iff.mp named).1
  have same := (List.getElem?_inj inside (by decide)).mp named'
  exact same ▸ found

theorem not_mentions_tangledTypedefs {a c : TypedefType}
    (a_mem : a ∈ (tangledTypedefs.link [⟨0⟩] true).model.typedefs) (a_name : a.name = "A")
    (c_mem : c ∈ (tangledTypedefs.link [⟨0⟩] true).model.typedefs) (c_name : c.name = "C") :
    ¬ (tangledTypedefs.link [⟨0⟩] true).graph.Mentions c.id a.id := by
  have edges : (mentionGraph (tangledTypedefs.link [⟨0⟩] true).graph
      (tangledTypedefs.link [⟨0⟩] true).model.typedefs).successors 2 = [1] := by
    cbv
  intro mentions
  have leads : (mentionGraph (tangledTypedefs.link [⟨0⟩] true).graph
      (tangledTypedefs.link [⟨0⟩] true).model.typedefs).Points 2 0 :=
    (points_iff_of_getElem? (complete_literals tangledTypedefs [⟨0⟩] true)
      (wellFormed_literals tangledTypedefs [⟨0⟩] true)
      (targetsInside_literals tangledTypedefs [⟨0⟩] true)
      (nodup_typedef_ids tangledTypedefs [⟨0⟩] true)
      (getElem?_tangledTypedefs c_mem (c_name ▸ rfl))
      (getElem?_tangledTypedefs a_mem (a_name ▸ rfl))).mpr mentions
  rw [Digraph.Points, edges] at leads
  cases List.mem_singleton.mp leads

/-- Of the lists of at most four of the names, only one is written like this. -/
theorem names_of_message {list : List String} (inside : list ⊆ ["A", "B", "C"])
    (short : list.length ≤ 4)
    (message : DiagnosticKind.message .cyclicTypedef (some (Digraph.pathText list)) =
      "cyclic typedef: `A` -> `B` -> `C` -> `A`") : list = ["A", "B", "C"] ++ ["A"] := by
  have read : ∀ count ∈ List.range 5,
      ∀ list ∈ (List.replicate count ["A", "B", "C"]).sections,
        DiagnosticKind.message .cyclicTypedef (some (Digraph.pathText list)) =
            "cyclic typedef: `A` -> `B` -> `C` -> `A`" → list = ["A", "B", "C"] ++ ["A"] := by
    decide +kernel
  refine read list.length (List.mem_range.mpr (by omega)) list ?_ message
  rw [List.mem_sections, ← List.map_const', List.forall₂_map_right_iff, List.forall₂_same]
  exact fun name member => inside member

/-- The walk through the three typedefs is written with a last step that is none. -/
theorem not_tracesCycles_tangledTypedefs :
    ¬ TracesCycles (tangledTypedefs.link [⟨0⟩] true) fun _ head walk =>
        ComesBack (tangledTypedefs.link [⟨0⟩] true).graph head walk := by
  rintro ⟨groups, walks, subgroups⟩
  have messages : ((tangledTypedefs.link [⟨0⟩] true).reported.ofKind .cyclicTypedef).map
      (·.message) = ["cyclic typedef: `A` -> `B` -> `C` -> `A`"] := by
    cbv
  obtain ⟨problem, reported, message⟩ := List.map_eq_singleton_iff.mp messages
  rw [reported] at walks
  obtain ⟨group, _, ⟨head, walk, names_walk, comes_back⟩, -, rfl⟩ :=
    List.forall₂_cons_left_iff.mp walks
  have inside : walk ⊆ (tangledTypedefs.link [⟨0⟩] true).model.typedefs :=
    List.Subset.trans names_walk.inside (subgroups group List.mem_cons_self).1.subset
  have head_mem := inside (List.mem_of_mem_head? names_walk.starts)
  have whole : (walk ++ [head]).map (·.name) = ["A", "B", "C"] ++ ["A"] := by
    refine names_of_message ?_ ?_ (names_walk.message ▸ message)
    · rw [← names_tangledTypedefs]
      exact List.map_subset _ (List.append_subset.mpr
        ⟨inside, List.cons_subset.mpr ⟨head_mem, List.nil_subset _⟩⟩)
    · have short := (names_walk.nodup.subperm inside).length_le
      have count := congrArg List.length names_tangledTypedefs
      rw [List.length_map] at count
      rw [count] at short
      rw [List.length_map, List.length_append, List.length_singleton]
      exact Nat.succ_le_succ short
  rw [List.map_append] at whole
  obtain ⟨walk_names, head_name⟩ := List.append_inj' whole rfl
  have last_name := congrArg List.getLast? walk_names
  rw [List.getLast?_map] at last_name
  obtain ⟨last, at_last, last_name⟩ := Option.map_eq_some_iff.mp last_name
  exact not_mentions_tangledTypedefs head_mem (List.singleton_inj.mp head_name)
    (inside (List.mem_of_mem_getLast? at_last)) last_name (comes_back last at_last)

end FileTable
end IdlSchema
