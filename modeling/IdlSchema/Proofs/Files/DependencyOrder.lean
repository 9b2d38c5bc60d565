import IdlSchema.Files.Closure
import IdlSchema.Proofs.Digraph.Components
import IdlSchema.Proofs.Files.FileTables

/-!
# The order in which files are linked

Files are ordered by the components of the graph of includes.  Every file stands in the order once,
after all files that it leads to and that do not lead back to it; files that include one another
stand next to each other, as they do in the table.
-/

namespace IdlSchema

open Relation

namespace FileTable

variable (files : FileTable)

theorem size_includeGraph : files.includeGraph.size = files.size :=
  List.length_map ..

@[simp]
theorem mem_ids {file : FileId} : file ∈ files.ids ↔ file.index < files.size := by
  rw [ids, List.mem_map]
  constructor
  · rintro ⟨index, inside, rfl⟩
    exact List.mem_range.mp inside
  · exact fun inside => ⟨file.index, List.mem_range.mpr inside, rfl⟩

theorem points_includeGraph_iff {a : FileId} {index : Nat} :
    files.includeGraph.Points a.index index ↔ files.Includes a ⟨index⟩ := by
  rw [Digraph.Points, Digraph.successors, includeGraph, Includes, includes, get?,
    List.getD_eq_getElem?_getD, List.getElem?_map]
  cases files.files[a.index]? with
  | none => simp
  | some file =>
      simp only [Option.map_some, Option.getD_some, List.mem_map]
      constructor
      · rintro ⟨b, member, rfl⟩
        exact member
      · exact fun member => ⟨_, member, rfl⟩

theorem reaches_includeGraph_iff {a b : FileId} :
    files.includeGraph.Reaches a.index b.index ↔ ReflTransGen files.Includes a b := by
  constructor
  · intro reaches
    exact reaches.lift FileId.mk fun _ _ points => files.points_includeGraph_iff.mp points
  · intro reaches
    exact reaches.lift FileId.index fun _ _ includes => files.points_includeGraph_iff.mpr includes

/-- Every file is in the order in which files are linked, once. -/
theorem dependencyOrder_perm : files.dependencyOrder.Perm files.ids := by
  rw [dependencyOrder, ids, ← size_includeGraph]
  exact files.includeGraph.flatten_components_perm.map _

theorem nodup_dependencyOrder : files.dependencyOrder.Nodup :=
  files.dependencyOrder_perm.nodup_iff.mpr
    (List.nodup_range.map fun _ _ same => FileId.mk.inj same)

/-- A file with all that include one another with it, in the order in which files are linked. -/
theorem exists_group {a : FileId} (inside : a ∈ files.ids) :
    ∃ front component back, files.includeGraph.components = front ++ component :: back ∧
      a.index ∈ component ∧ component.Sublist (List.range files.size) ∧
      ∀ index, index ∈ component ↔ index < files.size ∧
        ReflTransGen files.Includes a ⟨index⟩ ∧ ReflTransGen files.Includes ⟨index⟩ a := by
  rw [mem_ids, ← size_includeGraph] at inside
  obtain ⟨component, listed, member⟩ := Digraph.exists_mem_components inside
  obtain ⟨front, back, split⟩ := List.append_of_mem listed
  have ascending := (Digraph.pairwise_of_mem_components listed).2
  have all_inside : component ⊆ List.range files.size := fun index other =>
    List.mem_range.mpr (files.size_includeGraph ▸ Digraph.lt_size_of_mem_components listed other)
  refine ⟨front, component, back, split, member, ?_, fun index => ?_⟩
  · exact List.sublist_of_subperm_of_pairwise
      ((Digraph.nodup_of_mem_components listed).subperm all_inside) ascending List.pairwise_lt_range
  · rw [Digraph.mem_of_mem_components listed member, size_includeGraph, Digraph.Connected,
      ← reaches_includeGraph_iff, ← reaches_includeGraph_iff]

/--
The order in which files are linked: each file once, what is included before what includes it
unless they include one another, and files that include one another together, as in the table.
-/
structure OrdersIncludes : Prop where
  once : files.dependencyOrder.Perm files.ids
  includedFirst : ∀ a ∈ files.ids, ∀ b ∈ files.ids, ReflTransGen files.Includes a b →
    ¬ ReflTransGen files.Includes b a → [b, a].Sublist files.dependencyOrder
  together : ∀ a ∈ files.ids, ∃ front group back,
    files.dependencyOrder = front ++ group ++ back ∧ group.Sublist files.ids ∧
      ∀ b, b ∈ group ↔ b ∈ files.ids ∧
        ReflTransGen files.Includes a b ∧ ReflTransGen files.Includes b a

theorem ordersIncludes : files.OrdersIncludes where
  once := files.dependencyOrder_perm
  includedFirst a a_inside b b_inside reaches no_return := by
    obtain ⟨front, component, back, split, member, _, mem_iff⟩ := files.exists_group a_inside
    have b_before : b.index ∈ front.flatten := by
      refine (files.includeGraph.leavesFirst_components.mem_of_reaches split (.inl member)
        (files.reaches_includeGraph_iff.mpr reaches) ?_).resolve_left fun together => ?_
      · exact files.size_includeGraph ▸ files.mem_ids.mp b_inside
      · exact no_return ((mem_iff b.index).mp together).2.2
    have sublist : [b.index, a.index].Sublist files.includeGraph.components.flatten := by
      rw [split, List.flatten_append, List.flatten_cons]
      exact (List.singleton_sublist.mpr b_before).append
        (List.singleton_sublist.mpr (List.mem_append_left _ member))
    exact sublist.map FileId.mk
  together a inside := by
    obtain ⟨front, component, back, split, _, sublist, mem_iff⟩ := files.exists_group inside
    refine ⟨front.flatten.map .mk, component.map .mk, back.flatten.map .mk, ?_,
      sublist.map FileId.mk, fun b => ?_⟩
    · simp [dependencyOrder, split]
    · rw [mem_ids, List.mem_map]
      constructor
      · rintro ⟨index, index_mem, rfl⟩
        exact (mem_iff index).mp index_mem
      · exact fun together => ⟨b.index, (mem_iff b.index).mpr together, rfl⟩

/-- The components of every graph are found, and files are linked in the order they give. -/
theorem findsComponents_and_ordersIncludes (graph : Digraph) :
    graph.FindsComponents ∧ files.OrdersIncludes :=
  ⟨graph.findsComponents, files.ordersIncludes⟩

end FileTable
end IdlSchema
