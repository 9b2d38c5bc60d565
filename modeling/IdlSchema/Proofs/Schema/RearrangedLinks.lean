import IdlSchema.Proofs.Link.ProblemKinds
import IdlSchema.Proofs.Link.RenumberedModels
import IdlSchema.Proofs.Rules.ProblemKinds
import IdlSchema.Proofs.Rules.RenumberedRules
import IdlSchema.Proofs.Schema.ObeyedRules

/-!
# Files and declarations in any order

The order in which files are linked and the order of the declarations in them decide how types are
numbered, and nothing else.  Whether an error is reported does not depend on them, and without
errors they lead to the same declarations, types and values, and to the same warnings.
-/

namespace IdlSchema

open Diagnostics FileDeclarations TypeGraph

namespace Linked

/-- The problems of linking, and those that the rules find in the linked declarations. -/
def problems (linked : Linked) : Diagnostics :=
  linked.reported ++ linked.model.problems linked.graph

/--
The declarations of two links are the same one to one, by file and name, once each type is read as
what it denotes over files and names.  The same uses of deprecated types are reported.
-/
structure Alike (linked linked' : Linked) : Prop where
  graph : linked.graph.Renumbers linked'.graph
  model : linked.model.Alike (linked.graph.Alike linked'.graph)
    (ConstantValue.Alike (linked.graph.Alike linked'.graph)) linked'.model
  typeNames : linked.model.typeNames.Nodup ∧ linked'.model.typeNames.Nodup
  constantNames : linked.model.constantNames.Nodup ∧ linked'.model.constantNames.Nodup
  deprecated : (linked.problems.ofKind .deprecatedUsage).Perm
    (linked'.problems.ofKind .deprecatedUsage)

end Linked

/-- A build reports what was found with its files, and then the problems of linking them. -/
theorem Build.reported_ofFiles (files : FileTable) (found : Diagnostics) (warnDeprecated : Bool) :
    (ofFiles files found warnDeprecated).reported =
      found ++ (files.link files.dependencyOrder warnDeprecated).problems := by
  rw [ofFiles, Linked.problems, List.append_assoc]

namespace FileTable

variable {files files' : FileTable} {order order' : List FileId} {warnDeprecated : Bool}

theorem problems_link (files : FileTable) (order : List FileId) (warnDeprecated : Bool) :
    (files.link order warnDeprecated).problems =
      (files.link order warnDeprecated).reported ++ (files.checked order warnDeprecated).1.problems
        (files.literals order warnDeprecated).2 := by
  rw [Linked.problems, link_eq]

/-- A checked model declares the types of the graph, each once. -/
theorem declares_checked (files : FileTable) (order : List FileId) (warnDeprecated : Bool) :
    (files.checked order warnDeprecated).1.Declares (files.literals order warnDeprecated).2 := by
  rw [checked, (files.constantScope order warnDeprecated).checkModel_eq []]
  exact ConstantScope.declares_elaborateModel (declares_literals files order warnDeprecated)

/-- Only the types of references are reported as deprecated. -/
theorem deprecated_link (files : FileTable) (order : List FileId) (warnDeprecated : Bool) :
    (files.link order warnDeprecated).problems.ofKind .deprecatedUsage =
      ((files.typeScope order warnDeprecated).typeProblems (files.declared order).1).ofKind
        .deprecatedUsage := by
  rw [problems_link, link_eq]
  simp only [ofKind_append]
  rw [(among_declared files order).ofKind_eq_nil (by decide),
    (TypedefType.among_cycleProblems _ _).ofKind_eq_nil (by decide),
    (among_checked files order warnDeprecated).ofKind_eq_nil (by decide),
    (Model.among_problems _ _).ofKind_eq_nil (by decide), List.nil_append, List.append_nil,
    List.append_nil, List.append_nil]

namespace Rearranges

variable (rearranges : files.Rearranges order files' order')

include rearranges

/-- What is linked without errors is linked without errors in any order. -/
theorem linksClearly (clearly : files.LinksClearly order warnDeprecated) :
    files'.LinksClearly order' warnDeprecated where
  declarations := rearranges.clear_declared clearly.declarations
  types problem reported := clearly.types problem
    ((rearranges.typeProblems_perm clearly.declarations warnDeprecated).mem_iff.mpr reported)
  cycles := by
    have acyclic := (TypedefType.clear_cycleProblems_iff_mentions
      (complete_literals files order warnDeprecated) (wellFormed_literals files order warnDeprecated)
      (targetsInside_literals files order warnDeprecated)
      (nodup_typedef_ids files order warnDeprecated)).mp clearly.cycles
    exact (TypedefType.clear_cycleProblems_iff_mentions
      (complete_literals files' order' warnDeprecated)
      (wellFormed_literals files' order' warnDeprecated)
      (targetsInside_literals files' order' warnDeprecated)
      (nodup_typedef_ids files' order' warnDeprecated)).mpr
      (rearranges.renumbers_literals clearly.declarations warnDeprecated |>.not_mentions_self acyclic)
  values := (rearranges.renumbers_constantScope clearly.declarations warnDeprecated).clear_checkModel
    clearly.resolves clearly.values

/-- What is linked without errors is the same in any order, but for the numbering of types. -/
theorem alike_checked (clearly : files.LinksClearly order warnDeprecated) :
    (files.checked order warnDeprecated).1.Alike
      ((files.literals order warnDeprecated).2.Alike (files'.literals order' warnDeprecated).2)
      (ConstantValue.Alike
        ((files.literals order warnDeprecated).2.Alike (files'.literals order' warnDeprecated).2))
      (files'.checked order' warnDeprecated).1 := by
  have clearly' := rearranges.linksClearly clearly
  exact (rearranges.renumbers_constantScope clearly.declarations warnDeprecated).checkModel
    clearly.resolves clearly'.resolves clearly.values clearly'.values

/-- What has no error has none in any order. -/
theorem clear_problems (clear : Clear (files.link order warnDeprecated).problems) :
    Clear (files'.link order' warnDeprecated).problems := by
  rw [problems_link, clear_append] at clear ⊢
  have clearly := linksClearly_of_clear clear.1
  have clearly' := rearranges.linksClearly clearly
  constructor
  · rw [link_eq]
    simp only [clear_append]
    exact ⟨⟨⟨clearly'.declarations, clearly'.types⟩, clearly'.cycles⟩, clearly'.values⟩
  · exact Model.clear_of_alike (rearranges.renumbers_literals clearly.declarations warnDeprecated)
      (declares_checked files order warnDeprecated).serviceIds
      (declares_checked files' order' warnDeprecated).serviceIds (rearranges.alike_checked clearly)
      clear.2

end Rearranges

/--
The order of files and declarations does not matter.  An error is reported in one order just where
one is reported in the other, and without errors both lead to the same declarations and warnings.
-/
theorem orderIndependent (shuffled : files.Shuffled files') (permuted : order.Perm order')
    (warnDeprecated : Bool) :
    (Clear (files.link order warnDeprecated).problems ↔
        Clear (files'.link order' warnDeprecated).problems) ∧
      (Clear (files.link order warnDeprecated).problems →
        (files.link order warnDeprecated).Alike (files'.link order' warnDeprecated)) := by
  have rearranges : files.Rearranges order files' order' := ⟨shuffled, permuted⟩
  refine ⟨⟨rearranges.clear_problems, rearranges.symm.clear_problems⟩, fun clear => ?_⟩
  rw [problems_link, clear_append] at clear
  have clearly := linksClearly_of_clear clear.1
  have declares := declares_checked files order warnDeprecated
  have declares' := declares_checked files' order' warnDeprecated
  constructor
  case graph =>
    rw [link_eq, link_eq]
    exact rearranges.renumbers_literals clearly.declarations warnDeprecated
  case model =>
    rw [link_eq, link_eq]
    exact rearranges.alike_checked clearly
  case typeNames =>
    rw [link_eq, link_eq]
    exact ⟨declares.typeNames, declares'.typeNames⟩
  case constantNames =>
    rw [link_eq, link_eq]
    exact ⟨declares.constantNames, declares'.constantNames⟩
  case deprecated =>
    rw [deprecated_link, deprecated_link]
    exact ofKind_perm (rearranges.typeProblems_perm clearly.declarations warnDeprecated)

/--
Two files that include each other.  Whatever the order, one of them uses what is declared further
down and in a file that is linked later.
-/
def tradeTable (arrange : {δ : Type} → List δ → List δ) : FileTable :=
  let shop := Location.start "shop.thrift"
  let goods := Location.start "goods.thrift"
  let named (name : String) : TypeReference := .named shop name .empty
  let field (id : Int16) (name type : String) (default? : Option Literal) : FieldDecl :=
    ⟨.plain name shop, id, .default, named type, default?⟩
  { files := [
      { path := "shop.thrift"
        includes := [⟨1⟩]
        tree := { FileTree.empty "shop.thrift" with
          constants := arrange [
            ⟨.plain "FEW" shop, named "i32", .identifier shop "ONE"⟩,
            ⟨.plain "ONE" shop, named "i32", .integer shop 1⟩]
          structs := arrange [
            ⟨.plain "Order" shop, .struct, [field 1 "items" "Items" none,
              field 2 "size" "goods.Size" (some (.identifier shop "goods.Size.SMALL"))]⟩,
            ⟨.plain "Failed" shop, .exception, [field 1 "count" "i32" (some (.identifier shop "FEW"))]⟩]
          typedefs := arrange [
            ⟨.plain "Items" shop, .list shop (named "Item") .empty⟩,
            ⟨.plain "Item" shop, named "goods.Item"⟩]
          services := arrange [
            ⟨.plain "Shop" shop, some (named "Base"),
              [⟨.plain "buy" shop, false, named "i32", [field 1 "order" "Order" none],
                [field 1 "failed" "Failed" none]⟩]⟩,
            ⟨.plain "Base" shop, none, [⟨.plain "ping" shop, true, named "void", [], []⟩]⟩] } },
      { path := "goods.thrift"
        includes := [⟨0⟩]
        tree := { FileTree.empty "goods.thrift" with
          enums := arrange [⟨{ Header.plain "Size" goods with documentation := "@deprecated" },
            [⟨.plain "SMALL" goods, some 1⟩, ⟨.plain "LARGE" goods, none⟩]⟩]
          structs := arrange [⟨.plain "Item" goods, .struct,
            [field 1 "size" "Size" none, field 2 "order" "shop.Order" none]⟩] } }] }

theorem shuffled_tradeTable : (tradeTable id).Shuffled (tradeTable List.reverse) := by
  have reversed (δ : Type) (list : List δ) : (id list).Perm list.reverse := list.reverse_perm.symm
  exact .cons ⟨rfl, rfl, reversed _ _, reversed _ _, reversed _ _, reversed _ _, reversed _ _⟩
    (.cons ⟨rfl, rfl, reversed _ _, reversed _ _, reversed _ _, reversed _ _, reversed _ _⟩ .nil)

set_option maxRecDepth 10000 in
theorem problems_tradeTable :
    ((tradeTable id).link [⟨0⟩, ⟨1⟩] true).problems.map (·.kind) =
      [.deprecatedUsage, .deprecatedUsage] := by
  cbv

theorem orderIndependent_reverse :
    Clear ((tradeTable List.reverse).link [⟨1⟩, ⟨0⟩] true).problems ∧
      ((tradeTable id).link [⟨0⟩, ⟨1⟩] true).Alike
        ((tradeTable List.reverse).link [⟨1⟩, ⟨0⟩] true) := by
  have swapped : [FileId.mk 0, FileId.mk 1].Perm [FileId.mk 1, FileId.mk 0] := .swap ..
  have same := orderIndependent shuffled_tradeTable swapped true
  have clear : Clear ((tradeTable id).link [⟨0⟩, ⟨1⟩] true).problems := by
    intro problem reported
    have kind := List.mem_map_of_mem (f := Diagnostic.kind) reported
    rw [problems_tradeTable, List.mem_pair, or_self] at kind
    rw [Diagnostic.isError, Diagnostic.severity, kind]
    rfl
  exact ⟨same.1.mp clear, same.2 clear⟩

end FileTable
end IdlSchema
