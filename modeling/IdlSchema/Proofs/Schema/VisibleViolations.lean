import IdlSchema.Proofs.Link.MirroredTrees
import IdlSchema.Proofs.Rules.Violations
import IdlSchema.Proofs.Schema.RearrangedLinks
import IdlSchema.Proofs.Schema.UnplacedBuilds

/-!
# Violations that show in the files

Rules are checked on what could be linked.  Fields, parameters, exceptions and methods are always
kept, so violations that show in them are reported whatever else is wrong.  But a default without a
value and a member whose value does not fit are left out, and no rule can meet them.
-/

namespace IdlSchema

open Diagnostics

/-! ## What shows in a file -/

namespace FileTree

/-- The lists in which fields must differ, of all declarations with new names. -/
def fieldLists (tree : FileTree) : List (List FieldDecl) :=
  tree.keptStructs.map (·.fields) ++ tree.keptServices.flatMap fun service =>
    service.functions.flatMap fun function => [function.parameters, function.exceptions]

/--
All violations that show in a file are reported at the offending elements, where some fields of
unions count as having defaults and some members of enums count as being there.
-/
structure Reveals (tree : FileTree) (defaulted : FieldDecl → Prop)
    (members : EnumDecl → List Header) (reported : Diagnostics) : Prop where
  ids : ∀ fields ∈ tree.fieldLists, ∀ first field, [first, field].Sublist fields →
    first.id = field.id → reported.Reports .duplicateFieldId field.header.location
  names : ∀ fields ∈ tree.fieldLists, ∀ first field, [first, field].Sublist fields →
    first.header.name = field.header.name →
      reported.Reports .duplicateFieldName field.header.location
  required : ∀ union ∈ tree.keptStructs, union.kind = .union → ∀ field ∈ union.fields,
    field.requiredness = .required → reported.Reports .invalidUnionField field.header.location
  defaults : ∀ union ∈ tree.keptStructs, union.kind = .union → ∀ first field,
    [first, field].Sublist union.fields → defaulted first → defaulted field →
      reported.Reports .invalidUnionField field.header.location
  members : ∀ enum ∈ tree.keptEnums, ∀ first member, [first, member].Sublist (members enum) →
    first.name = member.name → reported.Reports .duplicateEnumMember member.location
  oneWay : ∀ service ∈ tree.keptServices, ∀ function ∈ service.functions, function.oneWay = true →
    function.exceptions ≠ [] → reported.Reports .oneWayThrows function.header.location

end FileTree

namespace FileTable

variable (files : FileTable) (order : List FileId) (warnDeprecated : Bool)

/-- A field of a file has a default whose literal has a value at the type of the field. -/
def Valued (file : FileId) (decl : FieldDecl) : Prop :=
  ∃ literal, decl.default? = some literal ∧ ∀ type,
    (files.linkedScope order warnDeprecated).Stores (files.linkedScope order warnDeprecated).graph
      file decl.type type →
    (files.literalValue order warnDeprecated file type literal).isSome

end FileTable

/-- The members of an enum whose values fit. -/
def EnumDecl.fitting (enum : EnumDecl) : List Header :=
  (linkMembers 0 enum.members).1.map (·.header)

/-! ## What is reported -/

namespace Model

variable {ν : Type} {model : Model ν} {graph : TypeGraph} {struct : StructType ν} {enum : EnumType}
  {service : ServiceType ν} {method : Method ν} {kind : DiagnosticKind} {location : Location}

theorem reports_of_struct (listed : struct ∈ model.structs)
    (reports : struct.problems.Reports kind location) :
    (model.problems graph).Reports kind location := by
  rw [problems]
  exact (((reports.flatMap listed).mono (List.subset_append_left ..)).mono
    (List.subset_append_left ..)).mono (List.subset_append_left ..)

theorem reports_of_enum (listed : enum ∈ model.enums)
    (reports : enum.problems.Reports kind location) :
    (model.problems graph).Reports kind location := by
  rw [problems]
  exact (((reports.flatMap listed).mono (List.subset_append_right ..)).mono
    (List.subset_append_left ..)).mono (List.subset_append_left ..)

theorem reports_of_method (listed : service ∈ model.services) (member : method ∈ service.methods)
    (reports : (method.problems graph).Reports kind location) :
    (model.problems graph).Reports kind location := by
  have in_service : Reports (service.methods.flatMap (Method.problems graph)) kind location :=
    reports.flatMap member
  have in_services : Reports
      (model.services.flatMap fun service => service.methods.flatMap (Method.problems graph))
      kind location :=
    Reports.flatMap in_service listed
  rw [problems]
  exact (in_services.mono (List.subset_append_right ..)).mono (List.subset_append_left ..)

end Model

namespace FileTable

variable {files : FileTable} {order : List FileId} {warnDeprecated : Bool} {file : FileId}

theorem mem_written {δ : Type} {decls : FileTree → List δ} {decl : δ} (listed : file ∈ order)
    (member : decl ∈ decls (files.tree file)) : (file, decl) ∈ files.written order decls :=
  List.mem_flatMap.mpr ⟨file, listed, List.mem_map_of_mem member⟩

/-- A field whose literal has a value has a default in the model. -/
theorem Valued.isSome_default? {decl : FieldDecl} {field : Field ConstantValue}
    (valued : files.Valued order warnDeprecated file decl)
    (mirrors : (files.linkedScope order warnDeprecated).MirrorsField
      (files.literalValue order warnDeprecated) file decl field) : field.default?.isSome := by
  obtain ⟨literal, written, has_value⟩ := valued
  rw [mirrors.default?, written]
  exact has_value field.type mirrors.type

/-- A list of fields that must differ is linked field by field, and checked. -/
theorem exists_linkedFields (once : order.Nodup) (listed : file ∈ order) {fields : List FieldDecl}
    (member : fields ∈ (files.tree file).fieldLists) :
    ∃ role linked, List.Forall₂ ((files.linkedScope order warnDeprecated).MirrorsField
        (files.literalValue order warnDeprecated) file) fields linked ∧
      ∀ kind location, (Field.listProblems role linked).Reports kind location →
        ((files.link order warnDeprecated).model.problems
          (files.link order warnDeprecated).graph).Reports kind location := by
  rcases List.mem_append.mp member with in_struct | in_service
  · obtain ⟨decl, kept, rfl⟩ := List.mem_map.mp in_struct
    obtain ⟨struct, struct_mem, mirrors⟩ :=
      (files.mirrorsStructs warnDeprecated once).exists_of_mem_left (mem_written listed kept)
    exact ⟨.field, struct.fields, mirrors.fields, fun kind location reports =>
      Model.reports_of_struct struct_mem (reports.mono (List.subset_append_left ..))⟩
  · obtain ⟨decl, kept, in_function⟩ := List.mem_flatMap.mp in_service
    obtain ⟨function, function_mem, either⟩ := List.mem_flatMap.mp in_function
    obtain ⟨service, service_mem, mirrors⟩ :=
      (files.mirrorsServices warnDeprecated once).exists_of_mem_left (mem_written listed kept)
    obtain ⟨method, method_mem, mirrored⟩ := mirrors.methods.exists_of_mem_left function_mem
    rcases List.mem_pair.mp either with rfl | rfl
    · refine ⟨.parameter, method.parameters, mirrored.parameters, fun kind location reports =>
        Model.reports_of_method service_mem method_mem ?_⟩
      rw [Method.problems]
      exact ((reports.mono (List.subset_append_left ..)).mono (List.subset_append_left ..)).mono
        (List.subset_append_left ..)
    · refine ⟨.exception, method.exceptions, mirrored.exceptions, fun kind location reports =>
        Model.reports_of_method service_mem method_mem ?_⟩
      rw [Method.problems]
      exact ((reports.mono (List.subset_append_right ..)).mono (List.subset_append_left ..)).mono
        (List.subset_append_left ..)

/-- Fields that stand behind one another become fields that do. -/
theorem exists_linkedPair {first field : FieldDecl} {fields : List FieldDecl}
    {linked : List (Field ConstantValue)}
    (all : List.Forall₂ ((files.linkedScope order warnDeprecated).MirrorsField
      (files.literalValue order warnDeprecated) file) fields linked)
    (behind : [first, field].Sublist fields) :
    ∃ first' field', [first', field'].Sublist linked ∧
      (files.linkedScope order warnDeprecated).MirrorsField
        (files.literalValue order warnDeprecated) file first first' ∧
      (files.linkedScope order warnDeprecated).MirrorsField
        (files.literalValue order warnDeprecated) file field field' := by
  obtain ⟨pair, picked, both⟩ := all.exists_of_sublist behind
  cases both with
  | cons mirrors both =>
      cases both with
      | cons mirrors' both =>
          cases both with
          | nil => exact ⟨_, _, picked, mirrors, mirrors'⟩

/-- Fields that must differ are told apart by their identifiers and by their names. -/
theorem reports_repeatedField (once : order.Nodup) (listed : file ∈ order) {fields : List FieldDecl}
    (member : fields ∈ (files.tree file).fieldLists) {first field : FieldDecl}
    (behind : [first, field].Sublist fields) :
    (first.id = field.id →
        ((files.link order warnDeprecated).model.problems
          (files.link order warnDeprecated).graph).Reports .duplicateFieldId
            field.header.location) ∧
      (first.header.name = field.header.name →
        ((files.link order warnDeprecated).model.problems
          (files.link order warnDeprecated).graph).Reports .duplicateFieldName
            field.header.location) := by
  obtain ⟨role, linked, all, report⟩ := exists_linkedFields once listed member
  obtain ⟨first', field', picked, mirrors, mirrors'⟩ := exists_linkedPair all behind
  have reports := Field.reports_listProblems role picked
  rw [Field.location, mirrors'.header, mirrors.id, mirrors'.id, Field.name, Field.name,
    mirrors.header, mirrors'.header] at reports
  exact ⟨fun same => report _ _ (reports.1 same), fun same => report _ _ (reports.2 same)⟩

/--
The rules find all violations that show in the files, but for those with defaults that have no value
and members whose values do not fit.
-/
theorem reveals_problems (once : order.Nodup) (listed : file ∈ order) :
    (files.tree file).Reveals (files.Valued order warnDeprecated file) EnumDecl.fitting
      ((files.link order warnDeprecated).model.problems
        (files.link order warnDeprecated).graph) := by
  constructor
  case ids =>
    exact fun fields member first field behind => (reports_repeatedField once listed member behind).1
  case names =>
    exact fun fields member first field behind => (reports_repeatedField once listed member behind).2
  case required =>
    intro union kept is_union field member required
    obtain ⟨struct, struct_mem, mirrors⟩ :=
      (files.mirrorsStructs warnDeprecated once).exists_of_mem_left (mem_written listed kept)
    obtain ⟨field', member', mirrored⟩ := mirrors.fields.exists_of_mem_left member
    have reports := StructType.reports_required (mirrors.kind.trans is_union) member'
      (mirrored.requiredness.trans required)
    rw [Field.location, mirrored.header] at reports
    exact Model.reports_of_struct struct_mem reports
  case defaults =>
    intro union kept is_union first field behind valued valued'
    obtain ⟨struct, struct_mem, mirrors⟩ :=
      (files.mirrorsStructs warnDeprecated once).exists_of_mem_left (mem_written listed kept)
    obtain ⟨first', field', picked, mirrored, mirrored'⟩ := exists_linkedPair mirrors.fields behind
    have reports := StructType.reports_secondDefault (mirrors.kind.trans is_union) picked
      (valued.isSome_default? mirrored) (valued'.isSome_default? mirrored')
    rw [Field.location, mirrored'.header] at reports
    exact Model.reports_of_struct struct_mem reports
  case members =>
    intro decl kept first member behind same
    obtain ⟨enum, enum_mem, mirrors⟩ :=
      (files.mirrorsEnums warnDeprecated once).exists_of_mem_left (mem_written listed kept)
    rw [EnumDecl.fitting, ← mirrors.members] at behind
    obtain ⟨pair, picked, headers⟩ := List.sublist_map_iff.mp behind
    obtain ⟨first', others, rfl, rfl, tail⟩ := List.map_eq_cons_iff.mp headers.symm
    obtain ⟨member', nothing, rfl, rfl, ending⟩ := List.map_eq_cons_iff.mp tail
    rw [List.map_eq_nil_iff.mp ending] at picked
    exact Model.reports_of_enum enum_mem (EnumType.reports_repeatedName picked same)
  case oneWay =>
    intro decl kept function member oneWay throws
    obtain ⟨service, service_mem, mirrors⟩ :=
      (files.mirrorsServices warnDeprecated once).exists_of_mem_left (mem_written listed kept)
    obtain ⟨method, method_mem, mirrored⟩ := mirrors.methods.exists_of_mem_left member
    have throws' : method.exceptions ≠ [] := by
      intro nothing
      have exceptions := mirrored.exceptions
      rw [nothing, List.forall₂_nil_right_iff] at exceptions
      exact throws exceptions
    have reports := Method.reports_throws (files.link order warnDeprecated).graph
      (mirrored.oneWay.trans oneWay) throws'
    rw [Method.location, mirrored.header] at reports
    exact Model.reports_of_method service_mem method_mem reports

end FileTable

theorem FileTree.Reveals.mono {tree : FileTree} {defaulted : FieldDecl → Prop}
    {members : EnumDecl → List Header} {reported reported' : Diagnostics}
    (reveals : tree.Reveals defaulted members reported) (subset : reported ⊆ reported') :
    tree.Reveals defaulted members reported' where
  ids fields member first field behind same :=
    (reveals.ids fields member first field behind same).mono subset
  names fields member first field behind same :=
    (reveals.names fields member first field behind same).mono subset
  required union kept is_union field member required :=
    (reveals.required union kept is_union field member required).mono subset
  defaults union kept is_union first field behind default_first default_field :=
    (reveals.defaults union kept is_union first field behind default_first default_field).mono subset
  members enum kept first member behind same :=
    (reveals.members enum kept first member behind same).mono subset
  oneWay service kept function member oneWay throws :=
    (reveals.oneWay service kept function member oneWay throws).mono subset

namespace Build

/--
All violations that show in the files of a build are reported, where some fields of unions count as
having defaults and some members of enums count as being there.
-/
def Reveals (build : Build) (defaulted : FileId → FieldDecl → Prop)
    (members : EnumDecl → List Header) : Prop :=
  ∀ file ∈ build.files.ids,
    (build.files.tree file).Reveals (defaulted file) members build.reported

/--
Whatever else is wrong, all violations that show in the files of a build are reported, but for those
with defaults that have no value and members whose values do not fit.
-/
theorem reveals_ofFiles (files : FileTable) (found : Diagnostics) (warnDeprecated : Bool) :
    (ofFiles files found warnDeprecated).Reveals
      (files.Valued files.dependencyOrder warnDeprecated) EnumDecl.fitting := by
  intro file member
  have listed := files.dependencyOrder_perm.mem_iff.mpr member
  refine (FileTable.reveals_problems files.nodup_dependencyOrder listed).mono ?_
  exact List.subset_append_right ..

end Build

/-- A union with two defaults, the first of which is no value of its type. -/
def mistypedUnion : FileTree :=
  let at_line (line : UInt32) : Location := ⟨"a.thrift", line, 1⟩
  { FileTree.empty "a.thrift" with
    structs := [⟨.plain "U" (at_line 1), .union, [
      ⟨.plain "a" (at_line 2), 1, .default, .named (at_line 2) "i32" .empty,
        some (.string (at_line 2) "x")⟩,
      ⟨.plain "b" (at_line 3), 2, .default, .named (at_line 3) "i32" .empty,
        some (.integer (at_line 3) 2)⟩]⟩] }

set_option maxRecDepth 10000 in
/-- The second default is not reported, so not all violations are that show as they are written. -/
theorem Build.not_reveals_mistypedUnion :
    ¬ (Schema.attempt (m := Id) .none .standard [mistypedUnion]).Reveals
      (fun _ decl => decl.default?.isSome) (fun enum => enum.members.map (·.header)) := by
  intro reveals
  have kinds : (Schema.attempt (m := Id) .none .standard [mistypedUnion]).reported.map (·.kind) =
      [.typeMismatch] := by
    cbv
  have tree : (Schema.attempt (m := Id) .none .standard [mistypedUnion]).files.tree ⟨0⟩ =
      mistypedUnion := by
    cbv
  have kept : mistypedUnion.keptStructs = mistypedUnion.structs := by
    cbv
  have ids : (Schema.attempt (m := Id) .none .standard [mistypedUnion]).files.ids = [⟨0⟩] := by
    cbv
  have shown := (reveals ⟨0⟩ (ids ▸ List.mem_singleton_self _)).defaults
  rw [tree, kept] at shown
  obtain ⟨problem, reported, kind, _⟩ :=
    shown _ List.mem_cons_self rfl _ _ (List.Sublist.refl _) rfl rfl
  have known := List.mem_map_of_mem (f := Diagnostic.kind) reported
  rw [kinds, kind] at known
  cases List.mem_singleton.mp known

end IdlSchema
