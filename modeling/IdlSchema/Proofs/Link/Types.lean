import IdlSchema.Link.Types
import IdlSchema.Proofs.Link.References
import IdlSchema.Proofs.StateRuns
import IdlSchema.Proofs.Types.Growth

/-!
# Steps of linking and what they make of declarations

A step of linking takes a well-formed graph to a larger one.  What it guarantees of its result it
guarantees of that graph and of all that linking makes of it later on, as long as no typedef gets
its target a second time; so the guarantees of steps hold together behind the last of them.

Each accepted declaration becomes one declaration of the model.  It says what was written, with
every type reference replaced by the type of the graph that the reference stands for; declared
types are resolved, and a typedef is known to stand for its target.
-/

namespace IdlSchema
namespace TypeGraph

/-- A step of linking and what holds of its result from then on. -/
structure Links {α : Type} (touched : List TypeId) (before : TypeGraph)
    (holds : α → TypeGraph → Prop) (result : α × TypeGraph) : Prop where
  wellFormed : result.2.WellFormed
  grows : Grows touched before result.2
  holds : ∀ (more : List TypeId) (later : TypeGraph), touched.Disjoint more →
    later.WellFormed → Grows more result.2 later → holds result.1 later

namespace Links

variable {α β : Type} {touched touched' : List TypeId} {before : TypeGraph}

theorem last {holds : α → TypeGraph → Prop} {result : α × TypeGraph}
    (links : Links touched before holds result) : holds result.1 result.2 :=
  links.holds [] result.2 (List.disjoint_nil_right touched) links.wellFormed (.refl _)

theorem pure {holds : α → TypeGraph → Prop} {a : α} (wellFormed : before.WellFormed)
    (always : ∀ later, holds a later) : Links [] before holds (a, before) :=
  ⟨wellFormed, .refl before, fun _ later _ _ _ => always later⟩

theorem mono {holds holds' : α → TypeGraph → Prop} {result : α × TypeGraph}
    (links : Links touched before holds result) (subset : touched ⊆ touched')
    (weaker : ∀ a later, holds a later → holds' a later) : Links touched' before holds' result :=
  ⟨links.wellFormed, links.grows.mono subset, fun more later apart wellFormed grows =>
    weaker _ _ (links.holds more later (List.disjoint_of_subset_left subset apart) wellFormed
      grows)⟩

/-- One step after another, where the second does not touch what the first has touched. -/
theorem bind {holds : α → TypeGraph → Prop} {holds' : β → TypeGraph → Prop}
    {step : StateM TypeGraph α} {next : α → StateM TypeGraph β}
    (first : Links touched before holds (step before)) (apart : touched.Disjoint touched')
    (second : ∀ a between, between.WellFormed → before.Extends between →
      Links touched' between (fun b later => holds a later → holds' b later) (next a between)) :
    Links (touched ++ touched') before holds' ((step >>= next) before) := by
  have behind := second (step before).1 (step before).2 first.wellFormed first.grows.extension
  refine ⟨behind.wellFormed, ?_, fun more later disjoint wellFormed grows => ?_⟩
  · exact (first.grows.mono (List.subset_append_left _ _)).trans
      (behind.grows.mono (List.subset_append_right _ _))
  · obtain ⟨disjoint_first, disjoint_second⟩ := List.disjoint_append_left.mp disjoint
    refine behind.holds more later disjoint_second wellFormed grows
      (first.holds (touched' ++ more) later ?_ wellFormed ?_)
    · exact List.disjoint_append_right.mpr ⟨apart, disjoint_first⟩
    · exact (behind.grows.mono (List.subset_append_left _ _)).trans
        (grows.mono (List.subset_append_right _ _))

/-- One step after another, where neither touches anything. -/
theorem andThen {holds : α → TypeGraph → Prop} {holds' : β → TypeGraph → Prop}
    {step : StateM TypeGraph α} {next : α → StateM TypeGraph β}
    (first : Links [] before holds (step before))
    (second : ∀ a between, between.WellFormed → before.Extends between →
      Links [] between (fun b later => holds a later → holds' b later) (next a between)) :
    Links [] before holds' ((step >>= next) before) :=
  first.bind (List.disjoint_nil_left []) second

/-- Steps over a list, none of which touches what another has touched. -/
theorem mapM {holds : α → β → TypeGraph → Prop} {step : α → StateM TypeGraph β}
    (touches : α → List TypeId) {list : List α} (wellFormed : before.WellFormed)
    (apart : list.Pairwise fun a b => (touches a).Disjoint (touches b))
    (each : ∀ a ∈ list, ∀ between, between.WellFormed → before.Extends between →
      Links (touches a) between (holds a) (step a between)) :
    Links (list.flatMap touches) before
      (fun results later => List.Forall₂ (fun a b => holds a b later) list results)
      (List.mapM step list before) := by
  induction list generalizing before with
  | nil => exact .pure wellFormed fun _ => .nil
  | cons a rest induction =>
      obtain ⟨first_apart, rest_apart⟩ := List.pairwise_cons.mp apart
      have first_disjoint : (touches a).Disjoint (rest.flatMap touches ++ []) := by
        rw [List.append_nil, List.disjoint_right]
        intro id inside again
        obtain ⟨other, member, inside'⟩ := List.mem_flatMap.mp inside
        exact first_apart other member again inside'
      rw [List.mapM_cons, List.flatMap_cons, ← List.append_nil (rest.flatMap touches)]
      refine (each a List.mem_cons_self before wellFormed (.refl before)).bind first_disjoint
        fun b between wellFormed' extension => ?_
      refine (induction wellFormed' rest_apart ?_).bind (List.disjoint_nil_right _)
        fun others later wellFormed'' _ => .pure wellFormed'' fun _ at_rest at_a =>
          .cons at_a at_rest
      exact fun other member further wellFormed'' extension' =>
        each other (List.mem_cons_of_mem a member) further wellFormed''
          (extension.trans extension')

/-- Steps over a list that touch nothing. -/
theorem mapM_nil {holds : α → β → TypeGraph → Prop} {step : α → StateM TypeGraph β}
    {list : List α} (wellFormed : before.WellFormed)
    (each : ∀ a ∈ list, ∀ between, between.WellFormed → before.Extends between →
      Links [] between (holds a) (step a between)) :
    Links [] before (fun results later => List.Forall₂ (fun a b => holds a b later) list results)
      (List.mapM step list before) := by
  have apart : list.Pairwise fun _ _ => ([] : List TypeId).Disjoint [] :=
    List.pairwise_of_forall fun _ _ => List.disjoint_nil_left []
  exact (mapM (fun _ => []) wellFormed apart each).mono (by simp) fun _ _ holds => holds

/-- Steps over a list for the sake of the graph alone. -/
theorem forM {step : α → StateM TypeGraph PUnit} {list : List α} (wellFormed : before.WellFormed)
    (each : ∀ a ∈ list, ∀ between, between.WellFormed → before.Extends between →
      Links [] between (fun _ _ => True) (step a between)) :
    Links [] before (fun _ _ => True) (List.forM list step before) := by
  induction list generalizing before with
  | nil => exact .pure wellFormed fun _ => trivial
  | cons a rest induction =>
      refine (each a List.mem_cons_self before wellFormed (.refl before)).andThen
        fun _ between wellFormed' extension => ?_
      refine (induction wellFormed' ?_).mono (List.Subset.refl []) fun _ _ _ _ => trivial
      exact fun other member further wellFormed'' extension' =>
        each other (List.mem_cons_of_mem a member) further wellFormed'' (extension.trans extension')

end Links
end TypeGraph
end IdlSchema

/-! # What linking makes of declarations -/

namespace IdlSchema
namespace Scope

open TypeGraph

variable (scope : Scope) (graph : TypeGraph)

/-- A type of a graph is the one that a reference in a file stands for. -/
structure Stores (file : FileId) (reference : TypeReference) (id : TypeId) : Prop where
  inside : id.index < graph.size
  expression : graph.expression id = scope.denote file reference

/-- A field says what was written. -/
structure LinksField (file : FileId) (decl : FieldDecl) (field : Field Literal) : Prop where
  header : field.header = decl.header
  id : field.id = decl.id
  requiredness : field.requiredness = decl.requiredness
  type : scope.Stores graph file decl.type field.type
  default? : field.default? = decl.default?

/-- A typedef says what was written, and its type stands for its target. -/
structure LinksTypedef (accepted : FileId × TypedefDecl × TypeId) (typedef : TypedefType) :
    Prop where
  header : typedef.header = accepted.2.1.header
  file : typedef.file = accepted.1
  id : typedef.id = accepted.2.2
  target : scope.Stores graph accepted.1 accepted.2.1.target typedef.target
  aliased : ∃ user, graph.user? typedef.id = some user ∧ user.target? = some typedef.target
  resolved : graph.isPending typedef.id = false

/-- An enum has the members that were kept. -/
structure LinksEnum (accepted : FileId × EnumDecl × TypeId) (enum : EnumType) : Prop where
  same : enum = ⟨accepted.2.1.header, accepted.1, accepted.2.2,
    (linkMembers 0 accepted.2.1.members).1⟩
  resolved : graph.isPending enum.id = false

/-- A struct, a union or an exception says what was written. -/
structure LinksStruct (accepted : FileId × StructDecl × TypeId) (struct : StructType Literal) :
    Prop where
  header : struct.header = accepted.2.1.header
  file : struct.file = accepted.1
  id : struct.id = accepted.2.2
  kind : struct.kind = accepted.2.1.kind
  fields : List.Forall₂ (scope.LinksField graph accepted.1) accepted.2.1.fields struct.fields
  resolved : graph.isPending struct.id = false

/-- A method says what was written. -/
structure LinksMethod (file : FileId) (decl : FunctionDecl) (method : Method Literal) : Prop where
  header : method.header = decl.header
  oneWay : method.oneWay = decl.oneWay
  returnType : scope.Stores graph file decl.returnType method.returnType
  parameters : List.Forall₂ (scope.LinksField graph file) decl.parameters method.parameters
  exceptions : List.Forall₂ (scope.LinksField graph file) decl.exceptions method.exceptions

/-- The base of a service is what was written, unless it failed. -/
inductive LinksBase (file : FileId) : Option TypeReference → Option TypeId → Prop where
  | none : LinksBase file none none
  | failed {reference : TypeReference} : scope.Stores graph file reference .invalid →
      LinksBase file (some reference) Option.none
  | some {reference : TypeReference} {id : TypeId} : scope.Stores graph file reference id →
      id ≠ .invalid → LinksBase file (some reference) (some id)

/-- A service says what was written. -/
structure LinksService (accepted : FileId × ServiceDecl × TypeId) (service : ServiceType Literal) :
    Prop where
  header : service.header = accepted.2.1.header
  file : service.file = accepted.1
  id : service.id = accepted.2.2
  base? : scope.LinksBase graph accepted.1 accepted.2.1.base? service.base?
  methods : List.Forall₂ (scope.LinksMethod graph accepted.1) accepted.2.1.functions
    service.methods
  resolved : graph.isPending service.id = false

/-- A constant says what was written. -/
structure LinksConstant (accepted : FileId × ConstantDecl × ConstantId)
    (constant : Constant Literal) : Prop where
  header : constant.header = accepted.2.1.header
  file : constant.file = accepted.1
  type : scope.Stores graph accepted.1 accepted.2.1.type constant.type
  value : constant.value = accepted.2.1.value

/-- A model says what was written in the accepted declarations, in their order. -/
structure LinksModel (all : List FileDeclarations) (model : Model Literal) : Prop where
  typedefs : List.Forall₂ (scope.LinksTypedef graph)
    ((all.flatMap (·.typedefs)).filterMap (·.accepted?)) model.typedefs
  enums : List.Forall₂ (LinksEnum graph)
    ((all.flatMap (·.enums)).filterMap (·.accepted?)) model.enums
  structs : List.Forall₂ (scope.LinksStruct graph)
    ((all.flatMap (·.structs)).filterMap (·.accepted?)) model.structs
  services : List.Forall₂ (scope.LinksService graph)
    ((all.flatMap (·.services)).filterMap (·.accepted?)) model.services
  constants : List.Forall₂ (scope.LinksConstant graph)
    ((all.flatMap (·.constants)).filterMap (·.accepted?)) model.constants

variable {scope : Scope} {before : TypeGraph} {file : FileId}

theorem links_link (wellFormed : scope.graph.WellFormed) (before_wellFormed : before.WellFormed)
    (extension : scope.graph.Extends before) (reference : TypeReference) :
    Links [] before (fun id later => scope.Stores later file reference id)
      (scope.link file reference before) := by
  have adds := adds_internExpression before_wellFormed
    ((declares_denote wellFormed file reference).extends extension)
  refine ⟨adds.wellFormed, adds.grows [], fun more later _ later_wellFormed grows => ⟨?_, ?_⟩⟩
  · exact adds.inside.trans_le grows.extension.size_le
  · have same :=
      adds.wellFormed.expression_extends later_wellFormed grows.extension adds.inside
    exact same.trans adds.expression

theorem links_finish (wellFormed : before.WellFormed) (id : TypeId) :
    Links [] before (fun _ later => later.isPending id = false) (finish id before) := by
  have wellFormed' : (before.markResolved id).WellFormed :=
    wellFormed.modifyUser id fun _ => rfl
  refine ⟨wellFormed', wellFormed.grows_modifyUser id fun user _ => ⟨rfl, fun _ => rfl, fun _ => rfl⟩,
    fun more later _ later_wellFormed grows => ?_⟩
  have linked : (before.markResolved id).isPending id = false := by
    rw [isPending]
    cases found : before.user? id with
    | some user =>
        rw [markResolved, user?_modifyUser found]
        rfl
    | none =>
        rw [markResolved, modifyUser_of_none found, found]
        rfl
  exact grows.isPending_eq_false wellFormed' later_wellFormed linked

theorem links_setTarget (wellFormed : before.WellFormed) {id target : TypeId} {user : UserType}
    (found : before.user? id = some user) :
    Links [id] before
      (fun _ later => ∃ user, later.user? id = some user ∧ user.target? = some target)
      ((modify fun graph => graph.setTarget id target : StateM TypeGraph PUnit) before) := by
  have wellFormed' : (before.setTarget id target).WellFormed :=
    wellFormed.modifyUser id fun _ => rfl
  refine ⟨wellFormed', wellFormed.grows_modifyUser id fun user same => ⟨rfl, fun resolved => resolved,
    fun untouched => absurd (same ▸ List.mem_singleton_self id) untouched⟩,
    fun more later apart later_wellFormed grows => ?_⟩
  have now := user?_modifyUser found fun user => { user with target? := some target }
  obtain ⟨user', found', progress⟩ := grows.user? now
  refine ⟨user', found', progress.target ?_⟩
  have same := wellFormed.id_of_user? found
  exact fun again => List.disjoint_left.mp apart (List.mem_singleton_self id) (same ▸ again)

theorem links_linkTypedef (wellFormed : scope.graph.WellFormed)
    (before_wellFormed : before.WellFormed) (extension : scope.graph.Extends before)
    {decl : TypedefDecl} {id : TypeId} {index : Nat}
    (declared : scope.graph.shape? id = some (.user index)) :
    Links [id] before (fun typedef later => scope.LinksTypedef later (file, decl, id) typedef)
      (scope.linkTypedef file decl id before) := by
  rw [linkTypedef]
  refine (links_link wellFormed before_wellFormed extension decl.target).bind
    (List.disjoint_nil_left [id]) fun target between wellFormed' further => ?_
  obtain ⟨user, found⟩ := wellFormed'.exists_user? (further.shape? (extension.shape? declared))
  refine (links_setTarget wellFormed' found).bind (List.disjoint_nil_right [id])
    fun _ between' wellFormed'' _ => ?_
  refine (links_finish wellFormed'' id).andThen fun _ between'' wellFormed''' _ => ?_
  exact .pure wellFormed''' fun later resolved aliased stores =>
    ⟨rfl, rfl, rfl, stores, aliased, resolved⟩

theorem links_linkEnum (before_wellFormed : before.WellFormed) (decl : EnumDecl) (id : TypeId) :
    Links [] before (fun enum later => LinksEnum later (file, decl, id) enum)
      (linkEnum file decl id before) := by
  rw [linkEnum]
  refine (links_finish before_wellFormed id).andThen fun _ between wellFormed' _ => ?_
  exact .pure wellFormed' fun later resolved => ⟨rfl, resolved⟩

theorem links_linkFields (wellFormed : scope.graph.WellFormed)
    (before_wellFormed : before.WellFormed) (extension : scope.graph.Extends before)
    (decls : List FieldDecl) :
    Links [] before
      (fun fields later => List.Forall₂ (scope.LinksField later file) decls fields)
      (scope.linkFields file decls before) := by
  rw [linkFields]
  refine .mapM_nil before_wellFormed fun decl _ between wellFormed' further => ?_
  refine (links_link wellFormed wellFormed' (extension.trans further) decl.type).andThen
    fun type between' wellFormed'' _ => ?_
  exact .pure wellFormed'' fun later stores => ⟨rfl, rfl, rfl, stores, rfl⟩

theorem links_linkStruct (wellFormed : scope.graph.WellFormed)
    (before_wellFormed : before.WellFormed) (extension : scope.graph.Extends before)
    (decl : StructDecl) (id : TypeId) :
    Links [] before (fun struct later => scope.LinksStruct later (file, decl, id) struct)
      (scope.linkStruct file decl id before) := by
  rw [linkStruct]
  refine (links_linkFields wellFormed before_wellFormed extension decl.fields).andThen
    fun fields between wellFormed' _ => ?_
  refine (links_finish wellFormed' id).andThen fun _ between' wellFormed'' _ => ?_
  exact .pure wellFormed'' fun later resolved stores => ⟨rfl, rfl, rfl, rfl, stores, resolved⟩

theorem links_linkMethod (wellFormed : scope.graph.WellFormed)
    (before_wellFormed : before.WellFormed) (extension : scope.graph.Extends before)
    (decl : FunctionDecl) :
    Links [] before (fun method later => scope.LinksMethod later file decl method)
      (scope.linkMethod file decl before) := by
  rw [linkMethod]
  refine (links_link wellFormed before_wellFormed extension decl.returnType).andThen
    fun returnType between wellFormed' further => ?_
  refine (links_linkFields wellFormed wellFormed' (extension.trans further)
    decl.parameters).andThen fun parameters between' wellFormed'' further' => ?_
  refine (links_linkFields wellFormed wellFormed'' ((extension.trans further).trans further')
    decl.exceptions).andThen fun exceptions between'' wellFormed''' _ => ?_
  exact .pure wellFormed''' fun later at_exceptions at_parameters at_returnType =>
    ⟨rfl, rfl, at_returnType, at_parameters, at_exceptions⟩

theorem links_linkBase (wellFormed : scope.graph.WellFormed)
    (before_wellFormed : before.WellFormed) (extension : scope.graph.Extends before)
    (reference? : Option TypeReference) :
    Links [] before (fun base? later => scope.LinksBase later file reference? base?)
      (scope.linkBase file reference? before) := by
  cases reference? with
  | none => exact .pure before_wellFormed fun later => .none
  | some reference =>
      rw [linkBase]
      refine (links_link wellFormed before_wellFormed extension reference).andThen
        fun base between wellFormed' _ => .pure wellFormed' fun later stores => ?_
      split
      · rename_i failed
        exact .failed (failed ▸ stores)
      · rename_i found
        exact .some stores found

theorem links_linkService (wellFormed : scope.graph.WellFormed)
    (before_wellFormed : before.WellFormed) (extension : scope.graph.Extends before)
    (decl : ServiceDecl) (id : TypeId) :
    Links [] before (fun service later => scope.LinksService later (file, decl, id) service)
      (scope.linkService file decl id before) := by
  rw [linkService]
  refine (links_linkBase wellFormed before_wellFormed extension decl.base?).andThen
    fun base? between wellFormed' further => ?_
  refine (Links.mapM_nil wellFormed' fun function _ within wellFormed'' further' =>
    links_linkMethod wellFormed wellFormed'' ((extension.trans further).trans further')
      function).andThen fun methods between' wellFormed'' _ => ?_
  refine (links_finish wellFormed'' id).andThen fun _ between'' wellFormed''' _ => ?_
  exact .pure wellFormed''' fun later resolved at_methods at_base =>
    ⟨rfl, rfl, rfl, at_base, at_methods, resolved⟩

theorem links_linkConstant (wellFormed : scope.graph.WellFormed)
    (before_wellFormed : before.WellFormed) (extension : scope.graph.Extends before)
    (decl : ConstantDecl) (id : ConstantId) :
    Links [] before (fun constant later => scope.LinksConstant later (file, decl, id) constant)
      (scope.linkConstant file decl before) := by
  rw [linkConstant]
  refine (links_link wellFormed before_wellFormed extension decl.type).andThen
    fun type between wellFormed' _ => ?_
  exact .pure wellFormed' fun later stores => ⟨rfl, rfl, stores, rfl⟩

theorem links_linkRefused (wellFormed : scope.graph.WellFormed)
    (before_wellFormed : before.WellFormed) (extension : scope.graph.Extends before)
    (declarations : FileDeclarations) :
    Links [] before (fun _ _ => True) (scope.linkRefused declarations before) := by
  rw [linkRefused]
  refine .forM before_wellFormed fun use _ between wellFormed' further => ?_
  refine (@links_link scope between declarations.file wellFormed wellFormed'
    (extension.trans further) use.2).andThen fun _ between' wellFormed'' _ => ?_
  exact .pure wellFormed'' fun _ _ => trivial

/-- Linking all declarations gives a model that says what was written. -/
theorem links_linkTypes (wellFormed : scope.graph.WellFormed) {all : List FileDeclarations}
    (declared : ∀ accepted ∈ (all.flatMap (·.typedefs)).filterMap (·.accepted?),
      ∃ index, scope.graph.shape? accepted.2.2 = some (.user index))
    (nodup : (((all.flatMap (·.typedefs)).filterMap (·.accepted?)).map (·.2.2)).Nodup) :
    Links (((all.flatMap (·.typedefs)).filterMap (·.accepted?)).map (·.2.2)) scope.graph
      (fun model later => scope.LinksModel later all model)
      (scope.linkTypes all scope.graph) := by
  have apart : ((all.flatMap (·.typedefs)).filterMap (·.accepted?)).Pairwise
      fun a b => [a.2.2].Disjoint [b.2.2] :=
    (List.pairwise_map.mp nodup).imp fun differ => by simpa using differ.symm
  rw [linkTypes, List.map_eq_flatMap, ← List.append_nil (List.flatMap _ _)]
  refine (Links.mapM (fun accepted => [accepted.2.2]) wellFormed apart
    fun accepted member within wellFormed' further =>
      have ⟨_, found⟩ := declared accepted member
      links_linkTypedef wellFormed wellFormed' further found).bind (List.disjoint_nil_right _)
    fun typedefs between wellFormed' extension => ?_
  refine (Links.mapM_nil wellFormed' fun accepted _ within wellFormed' further =>
    links_linkEnum wellFormed' accepted.2.1 accepted.2.2).andThen
    fun enums between' wellFormed' further => ?_
  replace extension := extension.trans further
  refine (Links.mapM_nil wellFormed' fun accepted _ within wellFormed' further =>
    links_linkStruct wellFormed wellFormed' (extension.trans further) accepted.2.1
      accepted.2.2).andThen fun structs between'' wellFormed' further => ?_
  replace extension := extension.trans further
  refine (Links.mapM_nil wellFormed' fun accepted _ within wellFormed' further =>
    links_linkService wellFormed wellFormed' (extension.trans further) accepted.2.1
      accepted.2.2).andThen fun services between'' wellFormed' further => ?_
  replace extension := extension.trans further
  refine (Links.forM wellFormed' fun declarations _ within wellFormed' further =>
    links_linkRefused wellFormed wellFormed' (extension.trans further) declarations).andThen
    fun _ between'' wellFormed' further => ?_
  replace extension := extension.trans further
  refine (Links.mapM_nil wellFormed' fun accepted _ within wellFormed' further =>
    links_linkConstant wellFormed wellFormed' (extension.trans further) accepted.2.1
      accepted.2.2).andThen fun constants between'' wellFormed' further => ?_
  exact .pure wellFormed' fun later at_constants _ at_services at_structs at_enums at_typedefs =>
    ⟨at_typedefs, at_enums, at_structs, at_services, at_constants⟩

end Scope
end IdlSchema
