import IdlSchema.Link.Link
import IdlSchema.Proofs.Link.Names
import IdlSchema.Proofs.Link.TypedefCycles
import IdlSchema.Proofs.Link.Types

/-!
# The graph and the model behind linking

Names are declared before types are linked, so the declared types of the final graph are those of
the accepted declarations.  Each of them is in the model, linked, and the typedefs of the model are
all there are.
-/

namespace IdlSchema

namespace FileDeclarations

/-- The typedefs that were accepted. -/
def acceptedTypedefs (all : List FileDeclarations) : List (FileId × TypedefDecl × TypeId) :=
  (all.flatMap (·.typedefs)).filterMap (·.accepted?)

/-- The enums that were accepted. -/
def acceptedEnums (all : List FileDeclarations) : List (FileId × EnumDecl × TypeId) :=
  (all.flatMap (·.enums)).filterMap (·.accepted?)

/-- The structs, unions and exceptions that were accepted. -/
def acceptedStructs (all : List FileDeclarations) : List (FileId × StructDecl × TypeId) :=
  (all.flatMap (·.structs)).filterMap (·.accepted?)

/-- The services that were accepted. -/
def acceptedServices (all : List FileDeclarations) : List (FileId × ServiceDecl × TypeId) :=
  (all.flatMap (·.services)).filterMap (·.accepted?)

/-- The constants that were accepted. -/
def acceptedConstants (all : List FileDeclarations) : List (FileId × ConstantDecl × ConstantId) :=
  (all.flatMap (·.constants)).filterMap (·.accepted?)

variable {files : FileTable} {all : List FileDeclarations} {user : UserType}

/-- The accepted declaration behind a declared type. -/
theorem mem_users_iff : user ∈ all.flatMap (·.users files) ↔
    (∃ accepted ∈ acceptedTypedefs all,
      .declared files accepted.1 accepted.2.1.header .typedef accepted.2.2 = user) ∨
    (∃ accepted ∈ acceptedEnums all,
      .declared files accepted.1 accepted.2.1.header .enum accepted.2.2 = user) ∨
    (∃ accepted ∈ acceptedStructs all,
      .declared files accepted.1 accepted.2.1.header (.struct accepted.2.1.kind) accepted.2.2 =
        user) ∨
    ∃ accepted ∈ acceptedServices all,
      .declared files accepted.1 accepted.2.1.header .service accepted.2.2 = user := by
  simp only [List.mem_flatMap, users, List.mem_append, Declared.users, List.mem_map,
    acceptedTypedefs, acceptedEnums, acceptedStructs, acceptedServices, List.mem_filterMap]
  constructor
  · rintro ⟨declarations, listed, ⟨accepted, ⟨attempt, member, same⟩, rfl⟩ |
      ⟨accepted, ⟨attempt, member, same⟩, rfl⟩ | ⟨accepted, ⟨attempt, member, same⟩, rfl⟩ |
      ⟨accepted, ⟨attempt, member, same⟩, rfl⟩⟩
    · exact .inl ⟨accepted, ⟨attempt, ⟨declarations, listed, member⟩, same⟩, rfl⟩
    · exact .inr (.inl ⟨accepted, ⟨attempt, ⟨declarations, listed, member⟩, same⟩, rfl⟩)
    · exact .inr (.inr (.inl ⟨accepted, ⟨attempt, ⟨declarations, listed, member⟩, same⟩, rfl⟩))
    · exact .inr (.inr (.inr ⟨accepted, ⟨attempt, ⟨declarations, listed, member⟩, same⟩, rfl⟩))
  · rintro (⟨accepted, ⟨attempt, ⟨declarations, listed, member⟩, same⟩, rfl⟩ |
      ⟨accepted, ⟨attempt, ⟨declarations, listed, member⟩, same⟩, rfl⟩ |
      ⟨accepted, ⟨attempt, ⟨declarations, listed, member⟩, same⟩, rfl⟩ |
      ⟨accepted, ⟨attempt, ⟨declarations, listed, member⟩, same⟩, rfl⟩)
    · exact ⟨declarations, listed, .inl ⟨accepted, ⟨attempt, member, same⟩, rfl⟩⟩
    · exact ⟨declarations, listed, .inr (.inl ⟨accepted, ⟨attempt, member, same⟩, rfl⟩)⟩
    · exact ⟨declarations, listed, .inr (.inr (.inl ⟨accepted, ⟨attempt, member, same⟩, rfl⟩))⟩
    · exact ⟨declarations, listed, .inr (.inr (.inr ⟨accepted, ⟨attempt, member, same⟩, rfl⟩))⟩

theorem typedef_ids_sublist (files : FileTable) (all : List FileDeclarations) :
    ((acceptedTypedefs all).map (·.2.2)).Sublist ((all.flatMap (·.users files)).map (·.id)) := by
  induction all with
  | nil => exact List.Sublist.slnil
  | cons declarations all induction =>
      rw [acceptedTypedefs, List.flatMap_cons, List.flatMap_cons, List.filterMap_append,
        List.map_append, List.map_append]
      refine List.Sublist.append ?_ induction
      rw [users, List.map_append, Declared.users, List.map_map]
      exact List.sublist_append_left _ _

end FileDeclarations

theorem TypeGraph.WellFormed.nodup_ids {graph : TypeGraph} (wellFormed : graph.WellFormed) :
    (graph.users.map (·.id)).Nodup := by
  refine List.pairwise_map.mpr (List.pairwise_iff_getElem.mpr fun i j i_lt j_lt i_lt_j same => ?_)
  have at_i := wellFormed.user i _ (List.getElem?_eq_getElem i_lt)
  have at_j := wellFormed.user j _ (List.getElem?_eq_getElem j_lt)
  rw [same, at_j] at at_i
  have same_index : j = i := TypeShape.user.inj (Option.some.inj at_i)
  omega

namespace FileTable

open FileDeclarations TypeGraph

/-- The attempts to declare what is in some files, and the names behind them. -/
def declared (files : FileTable) (order : List FileId) : List FileDeclarations × Names :=
  Names.declareFiles files order .initial

/-- The scope in which types are linked. -/
def typeScope (files : FileTable) (order : List FileId) (warnDeprecated : Bool) : Scope :=
  { files, graph := (files.declared order).2.graph, warnDeprecated }

/-- The model whose values are still literals, and the final graph. -/
def literals (files : FileTable) (order : List FileId) (warnDeprecated : Bool) :
    Model Literal × TypeGraph :=
  (files.typeScope order warnDeprecated).linkTypes (files.declared order).1
    (files.declared order).2.graph

/-- The scope in which values are checked. -/
def constantScope (files : FileTable) (order : List FileId) (warnDeprecated : Bool) :
    ConstantScope :=
  { files
    graph := (files.literals order warnDeprecated).2
    model := (files.literals order warnDeprecated).1 }

/-- The model whose values are checked, and what is known then. -/
def checked (files : FileTable) (order : List FileId) (warnDeprecated : Bool) :
    Model ConstantValue × CheckState :=
  (files.constantScope order warnDeprecated).checkModel
    (files.constantScope order warnDeprecated).initialState

theorem link_eq (files : FileTable) (order : List FileId) (warnDeprecated : Bool) :
    files.link order warnDeprecated =
      { graph := (files.literals order warnDeprecated).2
        model := (files.checked order warnDeprecated).1
        reported :=
          (files.declared order).1.flatMap (·.problems) ++
            (files.typeScope order warnDeprecated).typeProblems (files.declared order).1 ++
            TypedefType.cycleProblems (files.literals order warnDeprecated).2
              (files.literals order warnDeprecated).1.typedefs ++
            (files.checked order warnDeprecated).2.reported } :=
  rfl

variable (files : FileTable) (order : List FileId) (warnDeprecated : Bool)

theorem adds_declared : Names.initial.Adds ((files.declared order).1.flatMap (·.users files))
      (files.declared order).2 :=
  Names.adds_declareFiles files order wellFormed_initial

theorem records_declared :
    List.Forall₂ (fun file declarations => declarations.Records file (files.tree file)) order
      (files.declared order).1 :=
  Names.records_declareFiles files order .initial

theorem wellFormed_typeScope :
    (files.typeScope order warnDeprecated).graph.WellFormed :=
  (adds_declared files order).wellFormed

theorem mem_users_typeScope (user : UserType) :
    user ∈ (files.typeScope order warnDeprecated).graph.users ↔
      user ∈ (files.declared order).1.flatMap (·.users files) := by
  rw [typeScope, (adds_declared files order).users]
  exact Iff.rfl

/-- What linking makes of the accepted declarations. -/
theorem links_literals :
    Links ((acceptedTypedefs (files.declared order).1).map (·.2.2))
      (files.typeScope order warnDeprecated).graph
      (fun model later => (files.typeScope order warnDeprecated).LinksModel later
        (files.declared order).1 model)
      (files.literals order warnDeprecated) := by
  have wellFormed := wellFormed_typeScope files order warnDeprecated
  refine Scope.links_linkTypes wellFormed (fun accepted member => ?_) ?_
  · have listed := (mem_users_typeScope files order warnDeprecated _).mpr
      (mem_users_iff.mpr (.inl ⟨accepted, member, rfl⟩))
    obtain ⟨index, at_index⟩ := List.getElem?_of_mem listed
    exact ⟨index, wellFormed.user index _ at_index⟩
  · have nodup := wellFormed.nodup_ids
    rw [typeScope, (adds_declared files order).users] at nodup
    exact nodup.sublist (typedef_ids_sublist files _)

theorem wellFormed_literals : (files.literals order warnDeprecated).2.WellFormed :=
  (links_literals files order warnDeprecated).wellFormed

theorem linksModel_literals :
    (files.typeScope order warnDeprecated).LinksModel (files.literals order warnDeprecated).2
      (files.declared order).1 (files.literals order warnDeprecated).1 :=
  (links_literals files order warnDeprecated).last

/-- What an accepted declaration declares is a type of its construct in the final graph. -/
theorem kind?_literals_of_mem {user : UserType}
    (member : user ∈ (files.declared order).1.flatMap (·.users files)) :
    (files.literals order warnDeprecated).2.kind? user.id = some user.kind := by
  have wellFormed := wellFormed_typeScope files order warnDeprecated
  have links := links_literals files order warnDeprecated
  have found := wellFormed.user?_of_mem ((mem_users_typeScope files order warnDeprecated _).mpr
    member)
  rw [links.grows.kind?_eq wellFormed links.wellFormed, kind?, found, Option.map_some]

theorem kind?_of_mem_enums {enum : EnumType}
    (member : enum ∈ (files.literals order warnDeprecated).1.enums) :
    (files.literals order warnDeprecated).2.kind? enum.id = some .enum := by
  obtain ⟨accepted, listed, links⟩ :=
    (linksModel_literals files order warnDeprecated).enums.exists_of_mem_right member
  rw [links.same]
  exact kind?_literals_of_mem files order warnDeprecated
    (mem_users_iff.mpr (.inr (.inl ⟨accepted, listed, rfl⟩)))

theorem kind?_of_mem_structs {struct : StructType Literal}
    (member : struct ∈ (files.literals order warnDeprecated).1.structs) :
    (files.literals order warnDeprecated).2.kind? struct.id = some (.struct struct.kind) := by
  obtain ⟨accepted, listed, links⟩ :=
    (linksModel_literals files order warnDeprecated).structs.exists_of_mem_right member
  rw [links.id, links.kind]
  exact kind?_literals_of_mem files order warnDeprecated
    (mem_users_iff.mpr (.inr (.inr (.inl ⟨accepted, listed, rfl⟩))))

/-- A declared type of the final graph comes from an accepted declaration. -/
theorem exists_declared_of_user? {id : TypeId} {user' : UserType}
    (found : (files.literals order warnDeprecated).2.user? id = some user') :
    ∃ user ∈ (files.declared order).1.flatMap (·.users files), user.id = id ∧
      user.kind = user'.kind := by
  have wellFormed := wellFormed_typeScope files order warnDeprecated
  have links := links_literals files order warnDeprecated
  obtain ⟨user, found', progress⟩ :=
    links.grows.exists_user?_before wellFormed links.wellFormed found
  obtain ⟨index, _, at_index⟩ := user?_eq_some_iff.mp found'
  exact ⟨user, (mem_users_typeScope files order warnDeprecated _).mp
    (List.mem_of_getElem? at_index), wellFormed.id_of_user? found', progress.kind_eq.symm⟩

/-- The typedefs of the model are all typedefs of the graph. -/
theorem complete_literals :
    TypedefType.Complete (files.literals order warnDeprecated).2
      (files.literals order warnDeprecated).1.typedefs where
  aliased typedef member := by
    obtain ⟨accepted, listed, linked⟩ :=
      (linksModel_literals files order warnDeprecated).typedefs.exists_of_mem_right member
    obtain ⟨user, found, target⟩ := linked.aliased
    have kind := kind?_literals_of_mem files order warnDeprecated
      (mem_users_iff.mpr (.inl ⟨accepted, listed, rfl⟩))
    refine ⟨user, found, ?_, target⟩
    rw [UserType.declared, ← linked.id, kind?, found, Option.map_some] at kind
    exact Option.some.inj kind
  listed id user found is_typedef := by
    obtain ⟨user', member, rfl, same⟩ := exists_declared_of_user? files order warnDeprecated found
    rw [is_typedef] at same
    rcases mem_users_iff.mp member with ⟨accepted, listed, rfl⟩ | ⟨accepted, _, rfl⟩ |
      ⟨accepted, _, rfl⟩ | ⟨accepted, _, rfl⟩
    · obtain ⟨typedef, typedef_mem, linked⟩ :=
        (linksModel_literals files order warnDeprecated).typedefs.exists_of_mem_left listed
      exact ⟨typedef, typedef_mem, linked.id⟩
    all_goals cases same

/-- Every declared type is linked in the end. -/
theorem isPending_literals (id : TypeId) :
    (files.literals order warnDeprecated).2.isPending id = false := by
  have links := linksModel_literals files order warnDeprecated
  cases found : (files.literals order warnDeprecated).2.user? id with
  | none => rw [isPending, found, Option.any_none]
  | some user =>
      obtain ⟨user', member, rfl, _⟩ := exists_declared_of_user? files order warnDeprecated found
      rcases mem_users_iff.mp member with ⟨accepted, listed, rfl⟩ | ⟨accepted, listed, rfl⟩ |
        ⟨accepted, listed, rfl⟩ | ⟨accepted, listed, rfl⟩
      · obtain ⟨typedef, _, linked⟩ := links.typedefs.exists_of_mem_left listed
        exact linked.id ▸ linked.resolved
      · obtain ⟨enum, _, linked⟩ := links.enums.exists_of_mem_left listed
        have same : enum.id = accepted.2.2 := by rw [linked.same]
        exact same ▸ linked.resolved
      · obtain ⟨struct, _, linked⟩ := links.structs.exists_of_mem_left listed
        exact linked.id ▸ linked.resolved
      · obtain ⟨service, _, linked⟩ := links.services.exists_of_mem_left listed
        exact linked.id ▸ linked.resolved

end FileTable
end IdlSchema
