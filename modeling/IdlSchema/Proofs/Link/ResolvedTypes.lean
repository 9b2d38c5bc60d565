import IdlSchema.Proofs.Link.Linked
import IdlSchema.Proofs.Types.Parts

/-!
# The types that a model stores

Every type of a model stands in a position, like the reference that it was written as.  What the
linker reports of references is reported in that position, so it tells of the types too.

Where declaring and linking types meets no error, every type that is stored is whole: it has no
failed part, all that it mentions is linked, a type stands behind it, and its values can be stored
wherever values are.  Chains of typedefs keep to stored types, so this is true along them as well.
-/

namespace IdlSchema

namespace TypedefType

/-- The type that a typedef stands for, in its position. -/
def uses (typedef : TypedefType) : List (TypeUse × TypeId) :=
  [(.typedefTarget, typedef.target)]

end TypedefType

namespace StructType

/-- The types of the fields of a struct, in their position. -/
def uses {ν : Type} (struct : StructType ν) : List (TypeUse × TypeId) :=
  struct.fields.map fun field => (.field, field.type)

end StructType

namespace Method

/-- The types of a method, in their positions. -/
def uses {ν : Type} (method : Method ν) : List (TypeUse × TypeId) :=
  (.returnType, method.returnType) ::
    (method.parameters.map (fun field => (.parameter, field.type)) ++
      method.exceptions.map fun field => (.exception, field.type))

theorem mem_uses_of_parameter {ν : Type} {method : Method ν} {field : Field ν}
    (member : field ∈ method.parameters) : (.parameter, field.type) ∈ method.uses :=
  List.mem_cons_of_mem _ (List.mem_append_left _ (List.mem_map_of_mem member))

theorem mem_uses_of_exception {ν : Type} {method : Method ν} {field : Field ν}
    (member : field ∈ method.exceptions) : (.exception, field.type) ∈ method.uses :=
  List.mem_cons_of_mem _ (List.mem_append_right _ (List.mem_map_of_mem member))

end Method

namespace ServiceType

/-- The types of a service, in their positions. -/
def uses {ν : Type} (service : ServiceType ν) : List (TypeUse × TypeId) :=
  service.base?.toList.map (fun base => (.base, base)) ++ service.methods.flatMap (·.uses)

end ServiceType

namespace Constant

/-- The type of a constant, in its position. -/
def uses {ν : Type} (constant : Constant ν) : List (TypeUse × TypeId) :=
  [(.constant, constant.type)]

end Constant

namespace Model

/-- All types that a model stores, in their positions. -/
def uses {ν : Type} (model : Model ν) : List (TypeUse × TypeId) :=
  model.typedefs.flatMap (·.uses) ++ model.structs.flatMap (·.uses) ++
    model.services.flatMap (·.uses) ++ model.constants.flatMap (·.uses)

theorem mem_uses_iff {ν : Type} {model : Model ν} {use : TypeUse × TypeId} :
    use ∈ model.uses ↔ (∃ typedef ∈ model.typedefs, use ∈ typedef.uses) ∨
      (∃ struct ∈ model.structs, use ∈ struct.uses) ∨
      (∃ service ∈ model.services, use ∈ service.uses) ∨
      ∃ constant ∈ model.constants, use ∈ constant.uses := by
  simp only [uses, List.mem_append, List.mem_flatMap, or_assoc]

theorem mem_uses_of_field {ν : Type} {model : Model ν} {struct : StructType ν} {field : Field ν}
    (listed : struct ∈ model.structs) (member : field ∈ struct.fields) :
    (.field, field.type) ∈ model.uses :=
  mem_uses_iff.mpr (.inr (.inl ⟨struct, listed, List.mem_map.mpr ⟨field, member, rfl⟩⟩))

theorem mem_uses_of_base {ν : Type} {model : Model ν} {service : ServiceType ν} {base : TypeId}
    (listed : service ∈ model.services) (given : service.base? = some base) :
    (.base, base) ∈ model.uses := by
  refine mem_uses_iff.mpr (.inr (.inr (.inl ⟨service, listed, List.mem_append_left _ ?_⟩)))
  rw [given]
  exact List.mem_singleton_self _

theorem mem_uses_of_method {ν : Type} {model : Model ν} {service : ServiceType ν}
    {method : Method ν} {use : TypeUse × TypeId} (listed : service ∈ model.services)
    (member : method ∈ service.methods) (used : use ∈ method.uses) : use ∈ model.uses :=
  mem_uses_iff.mpr (.inr (.inr (.inl ⟨service, listed,
    List.mem_append_right _ (List.mem_flatMap.mpr ⟨method, member, used⟩)⟩)))

end Model

namespace Scope

open Diagnostics TypeGraph

variable (scope : Scope) (graph : TypeGraph) (file : FileId)

/-- Types stand in positions where references were written that they stand for. -/
def StoresUses (written : List (TypeUse × TypeReference)) (uses : List (TypeUse × TypeId)) : Prop :=
  ∀ use ∈ uses, ∃ reference ∈ written, reference.1 = use.1 ∧
    scope.Stores graph file reference.2 use.2

variable {scope graph file}

theorem storesUses_fields {decls : List FieldDecl} {fields : List (Field Literal)}
    (linked : List.Forall₂ (scope.LinksField graph file) decls fields) (position : TypeUse) :
    scope.StoresUses graph file (fieldUses position decls)
      (fields.map fun field => (position, field.type)) := by
  intro use member
  obtain ⟨field, field_mem, rfl⟩ := List.mem_map.mp member
  obtain ⟨decl, decl_mem, at_field⟩ := linked.exists_of_mem_right field_mem
  exact ⟨(position, decl.type), List.mem_map.mpr ⟨decl, decl_mem, rfl⟩, rfl, at_field.type⟩

theorem LinksTypedef.storesUses {accepted : FileId × TypedefDecl × TypeId} {typedef : TypedefType}
    (linked : scope.LinksTypedef graph accepted typedef) :
    scope.StoresUses graph accepted.1 accepted.2.1.uses typedef.uses := by
  intro use member
  obtain rfl := List.mem_singleton.mp member
  exact ⟨_, List.mem_singleton_self _, rfl, linked.target⟩

theorem LinksStruct.storesUses {accepted : FileId × StructDecl × TypeId}
    {struct : StructType Literal} (linked : scope.LinksStruct graph accepted struct) :
    scope.StoresUses graph accepted.1 accepted.2.1.uses struct.uses :=
  storesUses_fields linked.fields .field

theorem LinksMethod.storesUses {decl : FunctionDecl} {method : Method Literal}
    (linked : scope.LinksMethod graph file decl method) :
    scope.StoresUses graph file decl.uses method.uses := by
  refine List.forall_mem_cons.mpr ⟨⟨_, List.mem_cons_self, rfl, linked.returnType⟩, ?_⟩
  intro use member
  rcases List.mem_append.mp member with parameter | exception
  · obtain ⟨reference, written, holds⟩ := storesUses_fields linked.parameters .parameter use parameter
    exact ⟨reference, List.mem_cons_of_mem _ (List.mem_append_left _ written), holds⟩
  · obtain ⟨reference, written, holds⟩ := storesUses_fields linked.exceptions .exception use exception
    exact ⟨reference, List.mem_cons_of_mem _ (List.mem_append_right _ written), holds⟩

theorem LinksService.storesUses {accepted : FileId × ServiceDecl × TypeId}
    {service : ServiceType Literal} (linked : scope.LinksService graph accepted service) :
    scope.StoresUses graph accepted.1 accepted.2.1.uses service.uses := by
  intro use member
  rcases List.mem_append.mp member with base | method
  · obtain ⟨id, at_base, rfl⟩ := List.mem_map.mp base
    have linked_base := linked.base?
    rw [Option.mem_toList.mp at_base] at linked_base
    generalize at_decl : accepted.2.1.base? = reference? at linked_base
    cases linked_base with
    | @some reference _ stores _ =>
        refine ⟨(.base, reference), List.mem_append_left _ ?_, rfl, stores⟩
        rw [at_decl]
        exact List.mem_singleton_self _
  · obtain ⟨method, method_mem, at_method⟩ := List.mem_flatMap.mp method
    obtain ⟨decl, decl_mem, linked_method⟩ := linked.methods.exists_of_mem_right method_mem
    obtain ⟨reference, written, holds⟩ := linked_method.storesUses use at_method
    exact ⟨reference, List.mem_append_right _ (List.mem_flatMap.mpr ⟨decl, decl_mem, written⟩), holds⟩

theorem LinksConstant.storesUses {accepted : FileId × ConstantDecl × ConstantId}
    {constant : Constant Literal} (linked : scope.LinksConstant graph accepted constant) :
    scope.StoresUses graph accepted.1 accepted.2.1.uses constant.uses := by
  intro use member
  obtain rfl := List.mem_singleton.mp member
  exact ⟨_, List.mem_singleton_self _, rfl, linked.type⟩

private theorem clear_useProblems_of_accepted {δ ι : Type} {declared : List (Declared δ ι)}
    {uses : δ → List (TypeUse × TypeReference)}
    (clear : Clear (scope.acceptedProblems declared uses)) {accepted : FileId × δ × ι}
    (member : accepted ∈ declared.filterMap (·.accepted?)) {use : TypeUse × TypeReference}
    (written : use ∈ uses accepted.2.1) : Clear (scope.useProblems accepted.1 use) :=
  clear_flatMap.mp (clear_flatMap.mp clear accepted member) use written

/-- Where types are linked without errors, each stored type is that of a reference without errors. -/
theorem LinksModel.exists_reference {all : List FileDeclarations} {model : Model Literal}
    (linked : scope.LinksModel graph all model) (clear : Clear (scope.typeProblems all))
    {use : TypeUse × TypeId} (member : use ∈ model.uses) :
    ∃ file reference, scope.Stores graph file reference use.2 ∧
      Clear (scope.useProblems file (use.1, reference)) := by
  simp only [typeProblems, clear_append] at clear
  obtain ⟨⟨⟨⟨⟨at_typedefs, _⟩, at_structs⟩, at_services⟩, _⟩, at_constants⟩ := clear
  rcases Model.mem_uses_iff.mp member with ⟨typedef, listed, inside⟩ | ⟨struct, listed, inside⟩ |
    ⟨service, listed, inside⟩ | ⟨constant, listed, inside⟩
  · obtain ⟨accepted, accepted_mem, at_typedef⟩ := linked.typedefs.exists_of_mem_right listed
    obtain ⟨reference, written, same, stores⟩ := at_typedef.storesUses use inside
    exact ⟨_, _, stores, same ▸ clear_useProblems_of_accepted at_typedefs accepted_mem written⟩
  · obtain ⟨accepted, accepted_mem, at_struct⟩ := linked.structs.exists_of_mem_right listed
    obtain ⟨reference, written, same, stores⟩ := at_struct.storesUses use inside
    exact ⟨_, _, stores, same ▸ clear_useProblems_of_accepted at_structs accepted_mem written⟩
  · obtain ⟨accepted, accepted_mem, at_service⟩ := linked.services.exists_of_mem_right listed
    obtain ⟨reference, written, same, stores⟩ := at_service.storesUses use inside
    exact ⟨_, _, stores, same ▸ clear_useProblems_of_accepted at_services accepted_mem written⟩
  · obtain ⟨accepted, accepted_mem, at_constant⟩ := linked.constants.exists_of_mem_right listed
    obtain ⟨reference, written, same, stores⟩ := at_constant.storesUses use inside
    exact ⟨_, _, stores, same ▸ clear_useProblems_of_accepted at_constants accepted_mem written⟩

end Scope
end IdlSchema

/-! # Types that are linked without errors -/

namespace IdlSchema

open Relation

namespace Model

variable {ν : Type}

/-- The types that a model stores and what is below them are whole. -/
structure Resolves (model : Model ν) (graph : TypeGraph) : Prop where
  wellFormed : graph.WellFormed
  linked : ∀ id, graph.isPending id = false
  behind : ∀ id, ∃ actual, graph.trueType id = some actual
  target : ∀ a b, graph.Alias a b → (.typedefTarget, b) ∈ model.uses
  inside : ∀ use ∈ model.uses, use.2.index < graph.size
  valid : ∀ use ∈ model.uses, ∀ part, graph.Part part use.2 → part ≠ .invalid
  values : ∀ use ∈ model.uses, use.1.valuePosition?.isSome → graph.HasValues use.2
  parameters : ∀ use ∈ model.uses, ∀ part whole, graph.Parameter part whole →
    graph.Part whole use.2 → graph.HasValues part

/-- A type is stored or below one that is. -/
def Mentions (model : Model ν) (graph : TypeGraph) (id : TypeId) : Prop :=
  ∃ use ∈ model.uses, graph.Part id use.2

theorem mentions_of_mem {model : Model ν} {graph : TypeGraph} {use : TypeUse × TypeId}
    (member : use ∈ model.uses) : model.Mentions graph use.2 :=
  ⟨use, member, .refl⟩

namespace Resolves

variable {model : Model ν} {graph : TypeGraph} {id actual : TypeId}

theorem ne_invalid (resolves : model.Resolves graph) (mentioned : model.Mentions graph id) :
    id ≠ .invalid := by
  obtain ⟨use, member, below⟩ := mentioned
  exact resolves.valid use member id below

theorem lt_size (resolves : model.Resolves graph) (mentioned : model.Mentions graph id) :
    id.index < graph.size := by
  obtain ⟨use, member, below⟩ := mentioned
  exact resolves.wellFormed.lt_size_of_part below (resolves.inside use member)

/-- What is behind a mentioned type is mentioned. -/
theorem mentions_trueType (resolves : model.Resolves graph) (mentioned : model.Mentions graph id)
    (found : graph.trueType id = some actual) : model.Mentions graph actual := by
  rcases ReflTransGen.cases_tail (resolves.wellFormed.trueType_eq_some_iff.mp found).1 with
    rfl | ⟨previous, _, leads⟩
  · exact mentioned
  · exact mentions_of_mem (resolves.target previous actual leads)

theorem mentions_parameter {part : TypeId} (below : graph.Parameter part id)
    (mentioned : model.Mentions graph id) : model.Mentions graph part := by
  obtain ⟨use, member, below'⟩ := mentioned
  exact ⟨use, member, .head below below'⟩

/-- Resolving a mentioned type gives its shape. -/
theorem resolve (resolves : model.Resolves graph) (mentioned : model.Mentions graph id) :
    ∃ shape, graph.resolve id = .ok shape ∧ graph.shape? id = some shape := by
  obtain ⟨shape, found⟩ := TypeGraph.exists_shape? (resolves.lt_size mentioned)
  refine ⟨shape, ?_, found⟩
  have none_pending : (graph.expression id).users.find? graph.isPending = none :=
    List.find?_eq_none.mpr fun user _ => by rw [resolves.linked user]; exact Bool.false_ne_true
  rw [TypeGraph.resolve, none_pending, found]
  rfl

end Resolves
end Model

namespace TypeGraph

theorem hasValues_of_targets {graph : TypeGraph} {id : TypeId}
    (first : id ≠ .ofBuiltin .void ∧ graph.kind? id ≠ some .service)
    (targets : ∀ a b, graph.Alias a b → b ≠ .ofBuiltin .void ∧ graph.kind? b ≠ some .service) :
    graph.HasValues id := by
  intro actual chain
  rcases ReflTransGen.cases_tail chain with rfl | ⟨previous, _, leads⟩
  · exact first
  · exact targets previous actual leads

end TypeGraph

namespace FileTable

open Diagnostics TypeGraph

/-- Linking some files meets no error. -/
structure LinksClearly (files : FileTable) (order : List FileId) (warnDeprecated : Bool) :
    Prop where
  declarations : Clear ((files.declared order).1.flatMap (·.problems))
  types : Clear ((files.typeScope order warnDeprecated).typeProblems (files.declared order).1)
  cycles : Clear (TypedefType.cycleProblems (files.literals order warnDeprecated).2
    (files.literals order warnDeprecated).1.typedefs)
  values : Clear (files.checked order warnDeprecated).2.reported

variable {files : FileTable} {order : List FileId} {warnDeprecated : Bool}

theorem linksClearly_of_clear (clear : Clear (files.link order warnDeprecated).reported) :
    files.LinksClearly order warnDeprecated := by
  rw [link_eq] at clear
  simp only [clear_append] at clear
  obtain ⟨⟨⟨declarations, types⟩, cycles⟩, values⟩ := clear
  exact ⟨declarations, types, cycles, values⟩

namespace LinksClearly

/-- A stored type stands for a reference in which nothing failed. -/
theorem intact (clearly : files.LinksClearly order warnDeprecated) {use : TypeUse × TypeId}
    (member : use ∈ (files.literals order warnDeprecated).1.uses) :
    use.2.index < (files.literals order warnDeprecated).2.size ∧
      (files.typeScope order warnDeprecated).Intact
        ((files.literals order warnDeprecated).2.expression use.2) ∧
      (use.1.valuePosition?.isSome → (files.typeScope order warnDeprecated).Storable
        ((files.literals order warnDeprecated).2.expression use.2)) := by
  obtain ⟨file, reference, stores, clear⟩ :=
    (linksModel_literals files order warnDeprecated).exists_reference clearly.types member
  obtain ⟨intact, storable⟩ := Scope.intact_of_use clear
  rw [stores.expression]
  exact ⟨stores.inside, intact, storable⟩

theorem kind?_eq (files : FileTable) (order : List FileId) (warnDeprecated : Bool) (id : TypeId) :
    (files.typeScope order warnDeprecated).graph.kind? id =
      (files.literals order warnDeprecated).2.kind? id :=
  ((links_literals files order warnDeprecated).grows.kind?_eq
    (wellFormed_typeScope files order warnDeprecated)
    (wellFormed_literals files order warnDeprecated) id).symm

/-- All types of the model are whole. -/
theorem resolves (clearly : files.LinksClearly order warnDeprecated) :
    (files.literals order warnDeprecated).1.Resolves (files.literals order warnDeprecated).2 := by
  have wellFormed := wellFormed_literals files order warnDeprecated
  have complete := complete_literals files order warnDeprecated
  have target (a b : TypeId) (leads : (files.literals order warnDeprecated).2.Alias a b) :
      (.typedefTarget, b) ∈ (files.literals order warnDeprecated).1.uses := by
    have ⟨user, found, is_typedef, _⟩ := leads
    obtain ⟨typedef, listed, rfl⟩ := complete.listed a user found is_typedef
    obtain rfl := leads.unique (complete.aliased typedef listed)
    exact Model.mem_uses_iff.mpr (.inl ⟨typedef, listed, List.mem_singleton_self _⟩)
  have plain {id : TypeId} (storable : (files.typeScope order warnDeprecated).Storable
      ((files.literals order warnDeprecated).2.expression id)) :=
    wellFormed.ne_void_of_storable (kind?_eq files order warnDeprecated id) storable
  have plain_target (a b : TypeId) (leads : (files.literals order warnDeprecated).2.Alias a b) :=
    plain ((clearly.intact (target a b leads)).2.2 rfl)
  refine
    { wellFormed
      linked := isPending_literals files order warnDeprecated
      behind := complete.exists_trueType wellFormed clearly.cycles
      target
      inside := fun use member => (clearly.intact member).1
      valid := fun use member part below => ?_
      values := fun use member stored =>
        hasValues_of_targets (plain ((clearly.intact member).2.2 stored)) plain_target
      parameters := fun use member part whole step below => ?_ }
  · refine wellFormed.ne_invalid_of_expression ?_
    obtain ⟨_, intact, _⟩ := clearly.intact member
    rcases reflTransGen_iff_eq_or_transGen.mp below with rfl | deeper
    · exact intact.1
    · exact (intact.2 _ (wellFormed.expression_mem_parts_of_transGen deeper)).1
  · obtain ⟨_, intact, _⟩ := clearly.intact member
    have inner := wellFormed.expression_mem_parts_of_transGen (TransGen.head' step below)
    exact hasValues_of_targets (plain (intact.2 _ inner).2) plain_target

end LinksClearly
end FileTable
end IdlSchema
