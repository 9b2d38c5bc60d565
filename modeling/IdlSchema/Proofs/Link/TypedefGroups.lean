import IdlSchema.Proofs.Constants.Demands
import IdlSchema.Proofs.Link.ProblemKinds
import IdlSchema.Proofs.Types.Unfoldings

/-!
# The typedefs that are blamed for cycles

A typedef mentions another one if the other is a part of its target.  Typedefs that mention each
other in any number of steps form groups; each group with a cycle is reported once, at its first
typedef and with all others, and no typedef outside of such a group is blamed.  Where there is no
cycle, stripping the typedefs of a type, of what it is made of and so on comes to an end.
-/

namespace IdlSchema

open Diagnostics Relation

/-- A relation without cycles that leads to finitely many things only cannot go on forever. -/
theorem wellFounded_of_acyclic {α : Type} {leads : α → α → Prop} (list : List α)
    (listed : ∀ a b, leads a b → b ∈ list) (acyclic : ∀ a, ¬ TransGen leads a a) :
    WellFounded fun b a => leads a b := by
  classical
  let rank (a : α) : Nat := list.countP fun b => decide (TransGen leads a b)
  refine Subrelation.wf (fun {b a} step => ?_) (measure rank).wf
  refine List.countP_lt_countP (fun c _ reached => ?_) (listed a b step)
    (decide_eq_true (.single step)) (decide_eq_false (acyclic b))
  exact decide_eq_true (.head step (of_decide_eq_true reached))

namespace TypeGraph

/-- A typedef mentions another: the other is a part of its target. -/
def Mentions (graph : TypeGraph) (a b : TypeId) : Prop :=
  ∃ target, graph.Alias a target ∧ graph.kind? b = some .typedef ∧ graph.Part b target

variable {graph : TypeGraph}

/-- Where typedefs do not mention themselves, all that a type leads to ends. -/
theorem WellFormed.acc_leads (wellFormed : graph.WellFormed)
    (wellFounded : WellFounded fun b a => graph.Mentions a b) (id : TypeId) :
    Acc (fun b a => graph.Leads a b) id := by
  -- A type is finished when its typedefs are, since only collections come between.
  have of_typedefs (whole : TypeId) (typedefs : ∀ part, graph.Part part whole →
      graph.kind? part = some .typedef → Acc (fun b a => graph.Leads a b) part) :
      Acc (fun b a => graph.Leads a b) whole := by
    induction h : whole.index using Nat.strong_induction_on generalizing whole with
    | _ place induction =>
        by_cases is_typedef : graph.kind? whole = some .typedef
        · exact typedefs whole .refl is_typedef
        · refine .intro _ fun next leads => ?_
          rcases leads with aliased | below
          · exact absurd aliased.kind? is_typedef
          · have ⟨shape, found, member⟩ := below
            refine induction _ (h ▸ wellFormed.parameters whole shape found next member) next
              (fun part inside => typedefs part (inside.tail below)) rfl
  have of_typedef (typedef : TypeId) (is_typedef : graph.kind? typedef = some .typedef) :
      Acc (fun b a => graph.Leads a b) typedef := by
    induction typedef using wellFounded.induction with
    | _ typedef induction =>
        refine .intro _ fun next leads => ?_
        rcases leads with aliased | ⟨shape, found, member⟩
        · exact of_typedefs next fun part inside part_typedef =>
            induction part ⟨next, aliased, part_typedef, inside⟩ part_typedef
        · rw [parameters_of_kind? is_typedef found] at member
          exact absurd member List.not_mem_nil
  exact of_typedefs id fun part _ => of_typedef part

end TypeGraph

namespace TypedefType

open TypeGraph

/-- A problem blames the typedefs of a group: the first at its position, all others beside it. -/
inductive Blames : Diagnostic → List TypedefType → Prop where
  | intro {problem : Diagnostic} {head : TypedefType} {others : List TypedefType} :
      problem.location = head.location →
      problem.related = others.map (fun typedef =>
        ⟨"`" ++ typedef.name ++ "` is declared here", typedef.location⟩) →
      Blames problem (head :: others)

/-- The typedefs on cycles, those that mention each other together. -/
def groups (graph : TypeGraph) (typedefs : List TypedefType) : List (List TypedefType) :=
  let cycles := mentionGraph graph typedefs
  (cycles.components.filter cycles.isCyclic).map fun component =>
    component.filterMap (typedefs[·]?)

variable {graph : TypeGraph} {typedefs : List TypedefType}

theorem forall₂_blames (graph : TypeGraph) (typedefs : List TypedefType) :
    List.Forall₂ Blames (cycleProblems graph typedefs) (groups graph typedefs) := by
  refine List.forall₂_filterMap_map fun component member => ?_
  obtain ⟨listed, cyclic⟩ := List.mem_filter.mp member
  cases component with
  | nil => cases cyclic
  | cons first others =>
      have inside := Digraph.lt_size_of_mem_components listed List.mem_cons_self
      rw [Digraph.size, mentionGraph, List.length_map] at inside
      have found := List.getElem?_eq_getElem inside
      rw [cycleProblem, found, List.filterMap_cons_some found]
      refine ⟨_, rfl, .intro (Diagnostic.foldl_relatedTo ..).2 ?_⟩
      exact Diagnostic.related_foldl_relatedTo ..

/-! ## Places and types -/

theorem place?_of_getElem? (nodup : (typedefs.map (·.id)).Nodup) {place : Nat}
    {typedef : TypedefType} (found : typedefs[place]? = some typedef) :
    place? typedefs typedef.id = some place :=
  List.findIdx?_of_nodup nodup found

section

variable (complete : Complete graph typedefs) (wellFormed : graph.WellFormed)
  (targets : graph.TargetsInside)

include complete wellFormed targets

/-- One typedef points at another in the graph of places if it mentions it. -/
theorem points_iff {a b : TypeId} {place place' : Nat} (at_a : place? typedefs a = some place)
    (at_b : place? typedefs b = some place') :
    (mentionGraph graph typedefs).Points place place' ↔ graph.Mentions a b := by
  obtain ⟨typedef, found, rfl⟩ := exists_of_place? at_a
  obtain ⟨typedef', found', rfl⟩ := exists_of_place? at_b
  have aliased := complete.aliased typedef (List.mem_of_getElem? found)
  have aliased' := complete.aliased typedef' (List.mem_of_getElem? found')
  have ⟨user', at_user', _, _⟩ := aliased'
  obtain ⟨index', at_shape', _⟩ := user?_eq_some_iff.mp at_user'
  have mentioned := wellFormed.mem_users_expression (targets _ _ aliased) at_shape'
  simp only [Digraph.Points, Digraph.successors, mentionGraph, List.getD_eq_getElem?_getD,
    List.getElem?_map, found, Option.map_some, Option.getD_some, mentions,
    List.mem_eraseDups, List.mem_filterMap]
  constructor
  · rintro ⟨id, member, at_id⟩
    obtain ⟨other, found'', same⟩ := exists_of_place? at_id
    obtain rfl := Option.some.inj (found'.symm.trans found'')
    exact ⟨typedef.target, aliased, aliased'.kind?, mentioned.mp (same ▸ member)⟩
  · rintro ⟨target, leads, _, inside⟩
    obtain rfl := leads.unique aliased
    exact ⟨typedef'.id, mentioned.mpr inside, at_b⟩

omit wellFormed targets in
theorem exists_places {a b : TypeId} (mentions : graph.Mentions a b) :
    (∃ place, place? typedefs a = some place) ∧ ∃ place, place? typedefs b = some place := by
  obtain ⟨target, aliased, is_typedef, _⟩ := mentions
  refine ⟨complete.exists_place? aliased, ?_⟩
  obtain ⟨user, found, kind⟩ := Option.map_eq_some_iff.mp is_typedef
  obtain ⟨typedef, member, rfl⟩ := complete.listed b user found kind
  exact complete.exists_place? (complete.aliased typedef member)

theorem transGen_mentions_iff (nodup : (typedefs.map (·.id)).Nodup) {a b : TypeId}
    {place place' : Nat} (at_a : place? typedefs a = some place)
    (at_b : place? typedefs b = some place') :
    TransGen (mentionGraph graph typedefs).Points place place' ↔ TransGen graph.Mentions a b := by
  have step {a b : TypeId} {place place' : Nat} :=
    @points_iff _ _ complete wellFormed targets a b place place'
  constructor
  · intro path
    induction path generalizing b with
    | single last => exact .single ((step at_a at_b).mp last)
    | @tail between _ _ last induction =>
        have inside := Digraph.lt_size_of_points last
        rw [Digraph.size, mentionGraph, List.length_map] at inside
        have at_between := place?_of_getElem? nodup (List.getElem?_eq_getElem inside)
        exact (induction at_between).tail ((step at_between at_b).mp last)
  · intro path
    induction path generalizing place' with
    | single last => exact .single ((step at_a at_b).mpr last)
    | tail _ last induction =>
        obtain ⟨⟨between, at_between⟩, _⟩ := exists_places complete last
        exact (induction at_between).tail ((step at_between at_b).mpr last)

theorem reflTransGen_mentions_iff (nodup : (typedefs.map (·.id)).Nodup) {a b : TypeId}
    {place place' : Nat} (at_a : place? typedefs a = some place)
    (at_b : place? typedefs b = some place') :
    (mentionGraph graph typedefs).Reaches place place' ↔ ReflTransGen graph.Mentions a b := by
  rw [Digraph.Reaches, reflTransGen_iff_eq_or_transGen, reflTransGen_iff_eq_or_transGen,
    transGen_mentions_iff complete wellFormed targets nodup at_a at_b]
  refine or_congr_left ⟨?_, ?_⟩
  · rintro rfl
    obtain ⟨typedef, found, rfl⟩ := exists_of_place? at_a
    obtain ⟨typedef', found', rfl⟩ := exists_of_place? at_b
    rw [Option.some.inj (found.symm.trans found')]
  · rintro rfl
    exact Option.some.inj (at_b.symm.trans at_a)

end

/-! ## Groups -/

theorem mem_groups {group : List TypedefType} : group ∈ groups graph typedefs ↔
    ∃ component ∈ (mentionGraph graph typedefs).components,
      (mentionGraph graph typedefs).isCyclic component = true ∧
        component.filterMap (typedefs[·]?) = group := by
  simp only [groups, List.mem_map, List.mem_filter, and_assoc]

theorem nodup_flatten_groups (nodup : (typedefs.map (·.id)).Nodup) :
    (groups graph typedefs).flatten.Nodup := by
  have places : ((mentionGraph graph typedefs).components.filter
      (mentionGraph graph typedefs).isCyclic).flatten.Nodup :=
    ((Digraph.flatten_components_perm _).nodup_iff.mpr List.nodup_range).sublist
      List.filter_sublist.flatten
  rw [groups, ← List.filterMap_flatten]
  refine places.filterMap fun place place' typedef found found' => ?_
  have at_place := place?_of_getElem? nodup found
  exact Option.some.inj (at_place.symm.trans (place?_of_getElem? nodup found'))

section

variable (complete : Complete graph typedefs) (wellFormed : graph.WellFormed)
  (targets : graph.TargetsInside) (nodup : (typedefs.map (·.id)).Nodup)

include complete wellFormed targets nodup

/-- The typedefs in groups are those that mention themselves. -/
theorem mem_flatten_groups {typedef : TypedefType} : typedef ∈ (groups graph typedefs).flatten ↔
    typedef ∈ typedefs ∧ TransGen graph.Mentions typedef.id typedef.id := by
  have cycles {place : Nat} (found : typedefs[place]? = some typedef) :
      (mentionGraph graph typedefs).OnCycle place ↔ TransGen graph.Mentions typedef.id typedef.id :=
    have at_place := place?_of_getElem? nodup found
    transGen_mentions_iff complete wellFormed targets nodup at_place at_place
  rw [List.mem_flatten]
  constructor
  · rintro ⟨group, listed, member⟩
    obtain ⟨component, component_mem, cyclic, rfl⟩ := mem_groups.mp listed
    obtain ⟨place, inside, found⟩ := List.mem_filterMap.mp member
    exact ⟨List.mem_of_getElem? found,
      (cycles found).mp ((Digraph.isCyclic_iff component_mem inside).mp cyclic)⟩
  · rintro ⟨member, cycle⟩
    obtain ⟨place, found⟩ := List.getElem?_of_mem member
    have inside : place < (mentionGraph graph typedefs).size := by
      rw [Digraph.size, mentionGraph, List.length_map]
      exact (List.getElem?_eq_some_iff.mp found).1
    obtain ⟨component, component_mem, place_mem⟩ := Digraph.exists_mem_components inside
    exact ⟨_, mem_groups.mpr ⟨component, component_mem,
      (Digraph.isCyclic_iff component_mem place_mem).mpr ((cycles found).mpr cycle), rfl⟩,
      List.mem_filterMap.mpr ⟨place, place_mem, found⟩⟩

/-- A group has all typedefs that mention one of its members and are mentioned by it. -/
theorem mem_group_iff {group : List TypedefType} (listed : group ∈ groups graph typedefs)
    {typedef other : TypedefType} (member : typedef ∈ group) (other_mem : other ∈ typedefs) :
    other ∈ group ↔ ReflTransGen graph.Mentions typedef.id other.id ∧
      ReflTransGen graph.Mentions other.id typedef.id := by
  obtain ⟨component, component_mem, _, rfl⟩ := mem_groups.mp listed
  obtain ⟨place, place_mem, found⟩ := List.mem_filterMap.mp member
  obtain ⟨place', found'⟩ := List.getElem?_of_mem other_mem
  have at_place := place?_of_getElem? nodup found
  have at_place' := place?_of_getElem? nodup found'
  rw [← reflTransGen_mentions_iff complete wellFormed targets nodup at_place at_place',
    ← reflTransGen_mentions_iff complete wellFormed targets nodup at_place' at_place]
  have inside' : place' < (mentionGraph graph typedefs).size := by
    rw [Digraph.size, mentionGraph, List.length_map]
    exact (List.getElem?_eq_some_iff.mp found').1
  rw [List.mem_filterMap]
  constructor
  · rintro ⟨place'', place''_mem, found''⟩
    have same := place?_of_getElem? nodup found''
    obtain rfl := Option.some.inj (at_place'.symm.trans same)
    exact ((Digraph.mem_of_mem_components component_mem place_mem).mp place''_mem).2
  · intro connected
    exact ⟨place', (Digraph.mem_of_mem_components component_mem place_mem).mpr
      ⟨inside', connected⟩, found'⟩

end

/-- Where no cycle is reported, all that a type leads to ends. -/
theorem acc_leads_of_clear (complete : Complete graph typedefs) (wellFormed : graph.WellFormed)
    (targets : graph.TargetsInside) (nodup : (typedefs.map (·.id)).Nodup)
    (clear : Clear (cycleProblems graph typedefs)) (id : TypeId) :
    Acc (fun b a => graph.Leads a b) id := by
  refine wellFormed.acc_leads (wellFounded_of_acyclic (typedefs.map (·.id)) ?_ ?_) id
  · intro a b mentions
    obtain ⟨_, place, at_b⟩ := exists_places complete mentions
    obtain ⟨typedef, found, rfl⟩ := exists_of_place? at_b
    exact List.mem_map_of_mem (List.mem_of_getElem? found)
  · intro a cycle
    obtain ⟨next, mentions, _⟩ := TransGen.head'_iff.mp cycle
    obtain ⟨⟨place, at_a⟩, _⟩ := exists_places complete mentions
    exact clear_cycleProblems_iff.mp clear place
      ((transGen_mentions_iff complete wellFormed targets nodup at_a at_a).mpr cycle)

end TypedefType

/-! ## What linking reports -/

namespace FileTable

open FileDeclarations TypedefType

variable (files : FileTable) (order : List FileId) (warnDeprecated : Bool)

theorem nodup_typedef_ids :
    ((files.literals order warnDeprecated).1.typedefs.map (·.id)).Nodup := by
  have accepted : ((acceptedTypedefs (files.declared order).1).map (·.2.2)).Nodup := by
    have nodup := (wellFormed_typeScope files order warnDeprecated).nodup_ids
    rw [typeScope, (adds_declared files order).users] at nodup
    exact nodup.sublist (typedef_ids_sublist files _)
  have same : (files.literals order warnDeprecated).1.typedefs.map (·.id) =
      (acceptedTypedefs (files.declared order).1).map (·.2.2) := by
    rw [← List.forall₂_eq_eq_eq, List.forall₂_map_left_iff, List.forall₂_map_right_iff]
    exact (linksModel_literals files order warnDeprecated).typedefs.flip.imp fun _ _ links => links.id
  rw [same]
  exact accepted

theorem targetsInside_literals : (files.literals order warnDeprecated).2.TargetsInside := by
  intro a b aliased
  have complete := complete_literals files order warnDeprecated
  have leads := aliased
  obtain ⟨user, found, is_typedef, _⟩ := leads
  obtain ⟨typedef, member, rfl⟩ := complete.listed a user found is_typedef
  obtain rfl := aliased.unique (complete.aliased typedef member)
  obtain ⟨accepted, _, links⟩ :=
    (linksModel_literals files order warnDeprecated).typedefs.exists_of_mem_right member
  exact links.target.inside

/--
The cycles of typedefs are reported, each once: every group of typedefs that mention each other is
blamed in one problem, and there is no other problem of this kind.  Where there is none, all typedefs
can be stripped.
-/
structure BlamesCycles (linked : Linked) : Prop where
  complete : Complete linked.graph linked.model.typedefs
  blamed : ∃ groups : List (List TypedefType),
    List.Forall₂ Blames (linked.reported.ofKind .cyclicTypedef) groups ∧
    groups.flatten.Nodup ∧
    (∀ typedef, typedef ∈ groups.flatten ↔ typedef ∈ linked.model.typedefs ∧
      TransGen linked.graph.Mentions typedef.id typedef.id) ∧
    ∀ group ∈ groups, ∀ typedef ∈ group, ∀ other ∈ linked.model.typedefs,
      other ∈ group ↔ ReflTransGen linked.graph.Mentions typedef.id other.id ∧
        ReflTransGen linked.graph.Mentions other.id typedef.id
  finite : linked.reported.ofKind .cyclicTypedef = [] → ∀ id,
    Acc (fun b a => linked.graph.Leads a b) id ∧ ∃ actual, linked.graph.trueType id = some actual

/-- The typedef cycles that linking reports are those of the final graph. -/
theorem ofKind_cyclicTypedef_link :
    (files.link order warnDeprecated).reported.ofKind .cyclicTypedef =
      cycleProblems (files.literals order warnDeprecated).2
        (files.literals order warnDeprecated).1.typedefs := by
  rw [link_eq, ofKind_append, ofKind_append, ofKind_append,
    (among_declared files order).ofKind_eq_nil (by decide),
    ((files.typeScope order warnDeprecated).among_typeProblems _).ofKind_eq_nil (by decide),
    (among_checked files order warnDeprecated).ofKind_eq_nil (by decide),
    (among_cycleProblems _ _).ofKind_eq_self, List.append_nil, List.nil_append, List.nil_append]

/-- Linking blames each typedef on a cycle once, and no other. -/
theorem blamesCycles : BlamesCycles (files.link order warnDeprecated) := by
  have complete := complete_literals files order warnDeprecated
  have wellFormed := wellFormed_literals files order warnDeprecated
  have targets := targetsInside_literals files order warnDeprecated
  have nodup := nodup_typedef_ids files order warnDeprecated
  constructor
  case complete => exact complete
  case blamed =>
    refine ⟨_, ofKind_cyclicTypedef_link files order warnDeprecated ▸ forall₂_blames _ _,
      nodup_flatten_groups nodup, fun typedef => ?_, fun group listed typedef member other => ?_⟩
    · exact mem_flatten_groups complete wellFormed targets nodup
    · exact mem_group_iff complete wellFormed targets nodup listed member
  case finite =>
    rw [ofKind_cyclicTypedef_link]
    intro none_reported id
    have clear : Clear (cycleProblems (files.literals order warnDeprecated).2
        (files.literals order warnDeprecated).1.typedefs) := none_reported ▸ clear_nil
    exact ⟨acc_leads_of_clear complete wellFormed targets nodup clear id,
      complete.exists_trueType wellFormed clear id⟩

end FileTable
end IdlSchema
