import IdlSchema.Proofs.Link.Linked

/-!
# Names of types

A file uses the name of a type once and no keyword for it.  The declared types of the graph are
those that the typedefs, enums, structs and services of the model declare, each of them once, so
their names are apart as well.
-/

namespace IdlSchema

namespace UserType

/-- What a declared type is known by. -/
def key (user : UserType) : FileId × String :=
  (user.name.file, user.name.name)

end UserType

namespace TypeGraph

theorem lookup_eq_none_iff {graph : TypeGraph} {file : FileId} {name : String} :
    graph.lookup file name = none ↔ (file, name) ∉ graph.users.map UserType.key := by
  simp only [lookup, Option.map_eq_none_iff, List.find?_eq_none, Bool.and_eq_true, beq_iff_eq,
    List.mem_map, UserType.key, Prod.mk.injEq, not_exists, not_and]

theorem isSome_lookup_iff {graph : TypeGraph} {file : FileId} {name : String} :
    (graph.lookup file name).isSome ↔ (file, name) ∈ graph.users.map UserType.key := by
  rw [← Option.ne_none_iff_isSome, ne_eq, lookup_eq_none_iff, not_not]

end TypeGraph

namespace Names

/-- The declared types have different names, none of which is a keyword. -/
structure Apart (names : Names) : Prop where
  nodup : (names.graph.users.map UserType.key).Nodup
  free : ∀ user ∈ names.graph.users, Builtin.ofKeyword? user.name.name = none

variable {names : Names} (files : FileTable) (file : FileId)

theorem Apart.congr {names' : Names} (apart : names.Apart) (same : names'.graph = names.graph) :
    names'.Apart :=
  ⟨same ▸ apart.nodup, same ▸ apart.free⟩

theorem apart_declareType (wellFormed : names.graph.WellFormed) (apart : names.Apart)
    (header : Header) (kind : UserTypeKind) :
    (declareType files file header kind names).2.Apart := by
  rcases declareType_cases wellFormed files file header kind with
    ⟨problem, refused, _⟩ | ⟨id, after, declared, no_keyword, unused, adds, _⟩
  · rw [refused]
    exact apart
  · rw [declared]
    have fresh := TypeGraph.lookup_eq_none_iff.mp unused
    constructor <;> rw [adds.users]
    case nodup =>
      rw [List.map_append, List.map_singleton]
      exact apart.nodup.append (List.nodup_singleton _) (List.disjoint_singleton.mpr fresh)
    case free =>
      exact List.forall_mem_append.mpr ⟨apart.free, List.forall_mem_singleton.mpr no_keyword⟩

theorem apart_declareTypes {δ : Type} (header : δ → Header) (kind : δ → UserTypeKind)
    (decls : List δ) (wellFormed : names.graph.WellFormed) (apart : names.Apart) :
    (declareTypes files file header kind decls names).2.Apart := by
  induction decls generalizing names with
  | nil => exact apart
  | cons decl decls induction =>
      have first := adds_declareTypes files file header kind [decl] wellFormed
      rw [declareTypes_cons]
      exact induction first.wellFormed
        (apart_declareType files file wellFormed apart (header decl) (kind decl))

theorem apart_declareFile (wellFormed : names.graph.WellFormed) (apart : names.Apart) :
    (declareFile files file names).2.Apart := by
  have typedefs := adds_declareTypedefs files file wellFormed
  have enums := adds_declareEnums files file wellFormed
  have structs := adds_declareStructs files file wellFormed
  have at_typedefs := apart_declareTypes files file (·.header) (fun _ => .typedef)
    (files.tree file).typedefs wellFormed apart
  have at_enums := apart_declareTypes files file (·.header) (fun _ => .enum)
    (files.tree file).enums typedefs.wellFormed at_typedefs
  have at_structs := apart_declareTypes files file (·.header) (fun struct => .struct struct.kind)
    (files.tree file).structs enums.wellFormed at_enums
  have at_services := apart_declareTypes files file (·.header) (fun _ => .service)
    (files.tree file).services structs.wellFormed at_structs
  rw [declareFile_apply]
  exact at_services.congr (graph_declareConstants ..)

theorem apart_declareFiles (order : List FileId) (wellFormed : names.graph.WellFormed)
    (apart : names.Apart) : (declareFiles files order names).2.Apart := by
  induction order generalizing names with
  | nil => exact apart
  | cons file order induction =>
      rw [declareFiles, mapM_cons_apply]
      exact induction (adds_declareFile files file wellFormed).wellFormed
        (apart_declareFile files file wellFormed apart)

end Names

namespace Model

variable {ν : Type} (model : Model ν)

/-- The types that a model declares. -/
def declaredTypes (files : FileTable) : List UserType :=
  model.typedefs.map (fun typedef =>
      .declared files typedef.file typedef.header .typedef typedef.id) ++
    model.enums.map (fun enum => .declared files enum.file enum.header .enum enum.id) ++
    model.structs.map (fun struct =>
      .declared files struct.file struct.header (.struct struct.kind) struct.id) ++
    model.services.map (fun service =>
      .declared files service.file service.header .service service.id)

/-- The names of the types that a model declares, each with its file. -/
def typeNames : List (FileId × String) :=
  model.typedefs.map (fun typedef => (typedef.file, typedef.name)) ++
    model.enums.map (fun enum => (enum.file, enum.name)) ++
    model.structs.map (fun struct => (struct.file, struct.name)) ++
    model.services.map (fun service => (service.file, service.name))

theorem map_key_declaredTypes (files : FileTable) :
    (model.declaredTypes files).map UserType.key = model.typeNames := by
  simp only [declaredTypes, typeNames, List.map_append, List.map_map]
  rfl

end Model

namespace FileDeclarations

/-- The declared types of all files, sorted by their constructs. -/
theorem users_perm (files : FileTable) (all : List FileDeclarations) :
    (all.flatMap (·.users files)).Perm
      ((acceptedTypedefs all).map
          (fun (file, decl, id) => .declared files file decl.header .typedef id) ++
        (acceptedEnums all).map
          (fun (file, decl, id) => .declared files file decl.header .enum id) ++
        (acceptedStructs all).map
          (fun (file, decl, id) => .declared files file decl.header (.struct decl.kind) id) ++
        (acceptedServices all).map
          (fun (file, decl, id) => .declared files file decl.header .service id)) := by
  simp only [acceptedTypedefs, acceptedEnums, acceptedStructs, acceptedServices,
    List.filterMap_flatMap, List.map_flatMap, List.append_assoc]
  refine List.Perm.symm ?_
  refine .trans (.append_left _ (.trans (.append_left _ (List.flatMap_append_perm ..))
    (List.flatMap_append_perm ..))) (List.flatMap_append_perm ..)

end FileDeclarations

namespace FileTable

open FileDeclarations

variable (files : FileTable) (order : List FileId) (warnDeprecated : Bool)

/-- The types that the model declares are those of the graph in which types are linked. -/
theorem declaredTypes_perm : ((files.literals order warnDeprecated).1.declaredTypes files).Perm
    (files.typeScope order warnDeprecated).graph.users := by
  have links := linksModel_literals files order warnDeprecated
  rw [typeScope, (adds_declared files order).users]
  refine .trans (.of_eq ?_) (users_perm files (files.declared order).1).symm
  rw [Model.declaredTypes]
  congr 1
  · congr 1
    · congr 1
      · refine links.typedefs.map_eq fun accepted typedef linked => ?_
        rw [linked.file, linked.header, linked.id]
      · refine links.enums.map_eq fun accepted enum linked => ?_
        rw [linked.same]
    · refine links.structs.map_eq fun accepted struct linked => ?_
      rw [linked.file, linked.header, linked.kind, linked.id]
  · refine links.services.map_eq fun accepted service linked => ?_
    rw [linked.file, linked.header, linked.id]

/-- The declared types of a model have different names, none of which is a keyword. -/
theorem apart_typeNames :
    (files.literals order warnDeprecated).1.typeNames.Nodup ∧
      ∀ entry ∈ (files.literals order warnDeprecated).1.typeNames,
        Builtin.ofKeyword? entry.2 = none := by
  have apart : (files.declared order).2.Apart :=
    Names.apart_declareFiles files order TypeGraph.wellFormed_initial
      ⟨List.nodup_nil, List.forall_mem_nil _⟩
  have perm := declaredTypes_perm files order warnDeprecated
  rw [← Model.map_key_declaredTypes _ files]
  refine ⟨(perm.map _).nodup_iff.mpr apart.nodup, fun entry member => ?_⟩
  obtain ⟨user, listed, rfl⟩ := List.mem_map.mp member
  exact apart.free user (perm.mem_iff.mp listed)

theorem nodup_declaredTypes_ids :
    (((files.literals order warnDeprecated).1.declaredTypes files).map (·.id)).Nodup :=
  ((declaredTypes_perm files order warnDeprecated).map _).nodup_iff.mpr
    (wellFormed_typeScope files order warnDeprecated).nodup_ids

theorem nodup_service_ids :
    ((files.literals order warnDeprecated).1.services.map (·.id)).Nodup := by
  have nodup := nodup_declaredTypes_ids files order warnDeprecated
  rw [Model.declaredTypes, List.map_append, List.nodup_append, List.map_map] at nodup
  exact nodup.2.1

/-- A declared type of the graph is declared by the model. -/
theorem exists_declaredType {id : TypeId} {kind : UserTypeKind}
    (found : (files.literals order warnDeprecated).2.kind? id = some kind) :
    ∃ user ∈ (files.literals order warnDeprecated).1.declaredTypes files,
      user.id = id ∧ user.kind = kind := by
  obtain ⟨user', at_user, rfl⟩ := Option.map_eq_some_iff.mp found
  obtain ⟨user, member, same, kind⟩ := exists_declared_of_user? files order warnDeprecated at_user
  refine ⟨user, (declaredTypes_perm files order warnDeprecated).mem_iff.mpr ?_, same, kind⟩
  exact (mem_users_typeScope files order warnDeprecated user).mpr member

theorem exists_struct_of_kind? {id : TypeId} {kind : StructKind}
    (found : (files.literals order warnDeprecated).2.kind? id = some (.struct kind)) :
    ∃ struct ∈ (files.literals order warnDeprecated).1.structs,
      struct.id = id ∧ struct.kind = kind := by
  obtain ⟨user, member, same_id, same_kind⟩ := exists_declaredType files order warnDeprecated found
  simp only [Model.declaredTypes, List.mem_append, List.mem_map] at member
  rcases member with ((⟨typedef, _, rfl⟩ | ⟨enum, _, rfl⟩) | ⟨struct, listed, rfl⟩) | ⟨service, _, rfl⟩
  · cases same_kind
  · cases same_kind
  · exact ⟨struct, listed, same_id, UserTypeKind.struct.inj same_kind⟩
  · cases same_kind

theorem exists_service_of_kind? {id : TypeId}
    (found : (files.literals order warnDeprecated).2.kind? id = some .service) :
    ∃ service ∈ (files.literals order warnDeprecated).1.services, service.id = id := by
  obtain ⟨user, member, same_id, same_kind⟩ := exists_declaredType files order warnDeprecated found
  simp only [Model.declaredTypes, List.mem_append, List.mem_map] at member
  rcases member with ((⟨typedef, _, rfl⟩ | ⟨enum, _, rfl⟩) | ⟨struct, _, rfl⟩) | ⟨service, listed, rfl⟩
  · cases same_kind
  · cases same_kind
  · cases same_kind
  · exact ⟨service, listed, same_id⟩

end FileTable
end IdlSchema
