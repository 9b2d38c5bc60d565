import Mathlib
import IdlSchema.Proofs.Constants.SingleNodes
import IdlSchema.Proofs.Link.AcceptedNames
import IdlSchema.Proofs.Link.MirroredTrees
import IdlSchema.Proofs.Link.NameResolution
import IdlSchema.Proofs.Link.TypeResolution
import IdlSchema.Proofs.Schema.FullyLinked
import IdlSchema.Schema.Query

/-!
# Names that are shown

The name that is shown for a declared type has the qualifier of its file in front.  Where each file
of a schema has a qualifier of its own, looking the shown name up finds the type again, and the same
goes for constants; what is declared may have points in its name, and files may declare the same
names.  The model has the declaration of each type once, in the list of its construct.
-/

namespace IdlSchema

open Diagnostics

/-! ## What it means to be found -/

/-- Every file has a qualifier, and no two files have the same one. -/
structure FileTable.QualifiersApart (files : FileTable) : Prop where
  nodup : (files.files.map (·.qualifier)).Nodup
  nonempty : "" ∉ files.files.map (·.qualifier)

/-- The constructs of all declarations that are found for a type. -/
def Model.constructs {ν : Type} (model : Model ν) (id : TypeId) : List UserTypeKind :=
  (model.typedef? id).toList.map (fun _ => .typedef) ++
    (model.enum? id).toList.map (fun _ => .enum) ++
    (model.struct? id).toList.map (fun struct => .struct struct.kind) ++
    (model.service? id).toList.map (fun _ => .service)

/--
Types are found by the names that are shown for them, and constants by their names behind the
qualifiers of their files.  One declaration is found for a declared type, that of its construct, and
none for any other type.
-/
structure Schema.FindsShown (schema : Schema) : Prop where
  types : ∀ id user, schema.graph.user? id = some user →
    schema.findType (schema.graph.typeName id) = some id
  constructs : ∀ id, schema.model.constructs id = (schema.graph.kind? id).toList
  constants : ∀ constant ∈ schema.model.constants,
    schema.findConstant (schema.files.qualifier constant.file ++ "." ++ constant.name) =
      some constant

/-! ## Files and their qualifiers -/

namespace FileTable

variable {files : FileTable} {file : FileId}

theorem map_qualifier_ids (files : FileTable) :
    files.ids.map files.qualifier = files.files.map (·.qualifier) := by
  refine List.ext_getElem? fun index => ?_
  rw [ids, List.map_map, List.getElem?_map, List.getElem?_map]
  rcases Nat.lt_or_ge index files.size with inside | outside
  · rw [List.getElem?_range inside, List.getElem?_eq_getElem inside, Option.map_some,
      Option.map_some]
    simp [qualifier, get?, List.getElem?_eq_getElem inside]
  · rw [List.getElem?_eq_none (by simpa using outside), List.getElem?_eq_none outside]
    rfl

namespace QualifiersApart

variable (apart : files.QualifiersApart)

include apart

theorem nodup_ids : (files.ids.map files.qualifier).Nodup := by
  rw [map_qualifier_ids]
  exact apart.nodup

variable (listed : file ∈ files.ids)

include listed

theorem qualifier_ne : files.qualifier file ≠ "" := by
  intro empty
  refine apart.nonempty ?_
  rw [← map_qualifier_ids, ← empty]
  exact List.mem_map_of_mem listed

/-- A file is the only one with its qualifier. -/
theorem filter_ids : files.ids.filter (files.qualifier · == files.qualifier file) = [file] := by
  rw [← List.toList_find?_of_nodup apart.nodup_ids, List.find?_of_nodup apart.nodup_ids listed,
    Option.toList_some]

theorem eq_of_qualifier_eq {other : FileId} (listed' : other ∈ files.ids)
    (same : files.qualifier other = files.qualifier file) : other = file :=
  List.inj_on_of_nodup_map apart.nodup_ids listed' listed same

end QualifiersApart
end FileTable

/-! ## Declarations and their files -/

/--
Declared types and constants have names of their own in files of the schema.  The graph has the
types that the model declares.
-/
structure Schema.Registered (schema : Schema) : Prop where
  wellFormed : schema.graph.WellFormed
  users : schema.graph.users.Perm (schema.model.linkedTypes schema.files)
  typesApart : (schema.graph.users.map UserType.key).Nodup
  constantsApart : (schema.model.constants.map fun constant => (constant.file, constant.name)).Nodup
  typesInside : ∀ user ∈ schema.graph.users, user.name.file ∈ schema.files.ids
  constantsInside : ∀ constant ∈ schema.model.constants, constant.file ∈ schema.files.ids

/-- What keeps a declaration is in a file that is linked. -/
theorem FileTable.mem_order_of_kept {files : FileTable} {order : List FileId} {δ β : Type}
    {decls : FileTree → List δ} {keeps : FileId × δ → β → Prop} {results : List β}
    (kept : List.Forall₂ keeps (files.written order decls) results) {place : β → FileId}
    (placed : ∀ written result, keeps written result → place result = written.1) {result : β}
    (member : result ∈ results) : place result ∈ order := by
  obtain ⟨written, listed, keeps⟩ := kept.exists_of_mem_right member
  obtain ⟨file, in_order, inside⟩ := List.mem_flatMap.mp listed
  obtain ⟨_, _, rfl⟩ := List.mem_map.mp inside
  rwa [placed _ _ keeps]

namespace KeepsModel

variable {files : FileTable} {order : List FileId} {model : Model ConstantValue}

theorem file_mem_of_linkedTypes (kept : KeepsModel files order model) {user : UserType}
    (member : user ∈ model.linkedTypes files) : user.name.file ∈ order := by
  simp only [Model.linkedTypes, List.mem_append, List.mem_map] at member
  rcases member with ((⟨typedef, listed, rfl⟩ | ⟨enum, listed, rfl⟩) | ⟨struct, listed, rfl⟩) |
    ⟨service, listed, rfl⟩
  · exact FileTable.mem_order_of_kept kept.typedefs (fun _ _ keeps => keeps.file) listed
  · exact FileTable.mem_order_of_kept kept.enums (fun _ _ keeps => keeps.file) listed
  · exact FileTable.mem_order_of_kept kept.structs (fun _ _ keeps => keeps.file) listed
  · exact FileTable.mem_order_of_kept kept.services (fun _ _ keeps => keeps.file) listed

/-- The constants of a model have the names that are written. -/
theorem map_key_constants (kept : KeepsModel files order model) :
    model.constants.map (fun constant => (constant.file, constant.name)) =
      files.written order (·.constantNames) := by
  have same : (files.written order (·.constants)).map
      (fun written => (written.1, written.2.header.name)) =
        files.written order (·.constantNames) := by
    simp [FileTable.written, FileTree.constantNames, List.map_flatMap, Function.comp_def]
  rw [← same]
  refine kept.constants.map_eq fun written constant keeps => ?_
  rw [Constant.name, keeps.header, keeps.file]

end KeepsModel

theorem Build.registered_of_finish {files : FileTable} {found : Diagnostics}
    {warnDeprecated strict : Bool} {schema : Schema}
    (succeeds : (ofFiles files found warnDeprecated).finish strict = .ok schema) :
    schema.Registered := by
  have linked := fullyLinked_of_finish succeeds
  obtain ⟨clearly, _, warnings, rfl⟩ := linksClearly_of_finish succeeds
  have users := files.users_link_perm files.dependencyOrder warnDeprecated
  have kept := linked.kept
  rw [FileTable.link_eq] at users
  dsimp only at users kept
  constructor <;> dsimp only
  case wellFormed => exact files.wellFormed_literals files.dependencyOrder warnDeprecated
  case users => exact users
  case typesApart => exact files.nodup_keys_literals files.dependencyOrder warnDeprecated
  case constantsApart =>
    rw [kept.map_key_constants]
    exact ((files.clear_declared_iff _).mp clearly.declarations).constantsApart
  case typesInside =>
    intro user member
    exact linked.files.mem_iff.mp (kept.file_mem_of_linkedTypes (users.mem_iff.mp member))
  case constantsInside =>
    intro constant member
    exact linked.files.mem_iff.mp
      (FileTable.mem_order_of_kept kept.constants (fun _ _ keeps => keeps.file) member)

namespace Schema.Registered

variable {schema : Schema} (registered : schema.Registered)

include registered

/-! ## Looking things up -/

theorem qualifier_eq {user : UserType} (member : user ∈ schema.graph.users) :
    user.name.qualifier = schema.files.qualifier user.name.file := by
  have listed := registered.users.mem_iff.mp member
  simp only [Model.linkedTypes, List.mem_append, List.mem_map] at listed
  rcases listed with ((⟨_, _, rfl⟩ | ⟨_, _, rfl⟩) | ⟨_, _, rfl⟩) | ⟨_, _, rfl⟩ <;> rfl

theorem findType_typeName (apart : schema.files.QualifiersApart) {id : TypeId} {user : UserType}
    (found : schema.graph.user? id = some user) :
    schema.findType (schema.graph.typeName id) = some id := by
  obtain ⟨index, _, at_index⟩ := TypeGraph.user?_eq_some_iff.mp found
  have member := List.mem_of_getElem? at_index
  have inside := registered.typesInside user member
  have declared : schema.graph.lookup user.name.file user.name.name = some id :=
    (TypeGraph.lookup_eq_some_iff registered.typesApart).mpr
      ⟨user, member, rfl, registered.wellFormed.id_of_user? found⟩
  have shown : user.name.text =
      schema.files.qualifier user.name.file ++ "." ++ user.name.name := by
    rw [QualifiedName.text, registered.qualifier_eq member, if_neg]
    simpa using apart.qualifier_ne inside
  rw [TypeGraph.typeName_of_user? found, shown, findType,
    Text.splitFirst?_append _ (schema.files.plain_qualifier _)]
  dsimp only
  rw [apart.filter_ids inside, findIn, List.findSome?_singleton, declared]

theorem findConstant_qualified (apart : schema.files.QualifiersApart)
    {constant : Constant ConstantValue} (member : constant ∈ schema.model.constants) :
    schema.findConstant (schema.files.qualifier constant.file ++ "." ++ constant.name) =
      some constant := by
  have inside := registered.constantsInside constant member
  rw [findConstant, Text.splitFirst?_append _ (schema.files.plain_qualifier _)]
  dsimp only
  rw [← List.find?_of_nodup registered.constantsApart member]
  refine List.find?_congr fun other listed => Bool.eq_iff_iff.mpr ?_
  simp only [Bool.and_eq_true, beq_iff_eq, Prod.mk.injEq]
  constructor
  · rintro ⟨name, qualifier⟩
    have inside' := registered.constantsInside other listed
    exact ⟨apart.eq_of_qualifier_eq inside inside' qualifier, name⟩
  · rintro ⟨file, name⟩
    exact ⟨name, by rw [file]⟩

/-- The declarations that are found for a type are those of the model with its place. -/
theorem constructs_eq_filter (id : TypeId) : schema.model.constructs id =
    ((schema.model.linkedTypes schema.files).filter (·.id == id)).map (·.kind) := by
  have nodup := (registered.users.map (·.id)).nodup_iff.mp registered.wellFormed.nodup_ids
  simp only [Model.linkedTypes, List.map_append, List.map_map, List.nodup_append,
    Function.comp_def, UserType.linked, UserType.declared] at nodup
  obtain ⟨⟨⟨typedefs, enums, -⟩, structs, -⟩, services, -⟩ := nodup
  simp only [Model.constructs, Model.typedef?, Model.enum?, Model.struct?, Model.service?,
    Model.linkedTypes, List.filter_append, List.filter_map, List.map_append, List.map_map]
  rw [List.toList_find?_of_nodup typedefs, List.toList_find?_of_nodup enums,
    List.toList_find?_of_nodup structs, List.toList_find?_of_nodup services]
  rfl

/-- One declaration is found for a declared type, and it has the construct that the graph knows. -/
theorem constructs_eq (id : TypeId) :
    schema.model.constructs id = (schema.graph.kind? id).toList := by
  have known : schema.graph.users.find? (·.id == id) = schema.graph.user? id := by
    refine Option.ext fun user => ⟨fun found => ?_, fun found => ?_⟩
    · have same : user.id = id := by simpa using List.find?_some found
      rw [← same]
      exact registered.wellFormed.user?_of_mem (List.mem_of_find?_eq_some found)
    · rw [← registered.wellFormed.id_of_user? found]
      obtain ⟨index, -, at_index⟩ := TypeGraph.user?_eq_some_iff.mp found
      exact List.find?_of_nodup registered.wellFormed.nodup_ids (List.mem_of_getElem? at_index)
  have same := (registered.users.filter (·.id == id)).map (·.kind)
  rw [← registered.constructs_eq_filter id,
    ← List.toList_find?_of_nodup registered.wellFormed.nodup_ids, known] at same
  rw [TypeGraph.kind?]
  cases at_id : schema.graph.user? id with
  | none =>
      rw [at_id] at same
      exact List.nil_perm.mp same
  | some user =>
      rw [at_id] at same
      exact (List.singleton_perm.mp same).symm

theorem findsShown (apart : schema.files.QualifiersApart) : schema.FindsShown where
  types _ _ found := registered.findType_typeName apart found
  constructs := registered.constructs_eq
  constants _ member := registered.findConstant_qualified apart member

end Schema.Registered

/--
A schema that is built finds what it shows, if each of its files has a qualifier of its own; the
names of the declarations may have points in them, and files may share them.
-/
theorem Schema.findsShown_of_build {m : Type → Type} [Monad m] [LawfulMonad m]
    (resolver : IncludeResolver m) (config : SchemaConfig) (roots : List FileTree) :
    ∃ built : m { result : Except Diagnostics Schema // ∀ schema, result = .ok schema →
        schema.files.QualifiersApart → schema.FindsShown },
      Subtype.val <$> built = Schema.build resolver config roots :=
  Schema.exists_build resolver config roots fun _ _ _ succeeds =>
    (Build.registered_of_finish succeeds).findsShown

/-- A file whose declarations have points in their names. -/
def pointedTree (path : String) : FileTree :=
  let location := .start path
  let header := Header.plain "in.ner" location
  { FileTree.empty path with
    enums := [⟨header, []⟩]
    structs := [⟨.plain "out.er" location, .union, []⟩]
    constants := [⟨header, .named location "i32" .empty, .integer location 1⟩] }

set_option maxRecDepth 10000 in
theorem Schema.findsShown_of_build_pointed :
    ∃ schema, Schema.build (m := Id) .none .standard
        [pointedTree "a.thrift", pointedTree "b.thrift"] = .ok schema ∧
      schema.files.QualifiersApart ∧ schema.FindsShown := by
  obtain ⟨⟨result, finds⟩, same⟩ := Schema.findsShown_of_build (m := Id) .none .standard
    [pointedTree "a.thrift", pointedTree "b.thrift"]
  have qualifiers : (Schema.build (m := Id) .none .standard
      [pointedTree "a.thrift", pointedTree "b.thrift"]).toOption.map (fun schema =>
        schema.files.files.map (·.qualifier)) = some ["a", "b"] := by
    cbv
  replace same : result = Schema.build (m := Id) .none .standard
    [pointedTree "a.thrift", pointedTree "b.thrift"] := same
  rw [← same] at qualifiers ⊢
  cases result with
  | error _ => cases qualifiers
  | ok schema =>
      have two : schema.files.files.map (·.qualifier) = ["a", "b"] := Option.some.inj qualifiers
      have apart : schema.files.QualifiersApart := ⟨by rw [two]; decide, by rw [two]; decide⟩
      exact ⟨schema, rfl, apart, finds schema rfl apart⟩

end IdlSchema
