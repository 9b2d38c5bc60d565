import IdlSchema.Proofs.Constants.DefaultSlots
import IdlSchema.Proofs.Link.FirstNames
import IdlSchema.Proofs.Link.RenumberedModels
import IdlSchema.Proofs.Link.ReorderedConstants
import IdlSchema.Proofs.Link.TypedefGroups

/-!
# Models that mirror the files

Whether or not there are errors, the linked model says what is written, in order: each declaration
with a new name is in it once, and nothing else is.  A type reference becomes the type that it
stands for in its file, and a default the value of its own literal at its own type.  The graph
knows each declared type as the model has it.
-/

namespace IdlSchema

open Diagnostics FileDeclarations TypeGraph

/-! ## What it means to mirror -/

namespace UserType

/-- The declared type that an accepted declaration becomes once it is linked. -/
def linked (files : FileTable) (file : FileId) (header : Header) (kind : UserTypeKind)
    (id : TypeId) (target? : Option TypeId) : UserType :=
  { UserType.declared files file header kind id with target?, resolved := true }

theorem eq_of_declaration {user user' : UserType} (same : user.declaration = user'.declaration)
    (target : user.target? = user'.target?) (resolved : user.resolved = user'.resolved) :
    user = user' := by
  cases user
  cases user'
  simp only [declaration, mk.injEq] at same target resolved ⊢
  exact ⟨same.1, same.2.1, same.2.2.1, same.2.2.2.1, same.2.2.2.2.1, target, resolved⟩

end UserType

/-- The types that a model declares, as the graph knows them once they are linked. -/
def Model.linkedTypes {ν : Type} (model : Model ν) (files : FileTable) : List UserType :=
  model.typedefs.map (fun typedef =>
      .linked files typedef.file typedef.header .typedef typedef.id (some typedef.target)) ++
    model.enums.map (fun enum => .linked files enum.file enum.header .enum enum.id none) ++
    model.structs.map (fun struct =>
      .linked files struct.file struct.header (.struct struct.kind) struct.id none) ++
    model.services.map (fun service =>
      .linked files service.file service.header .service service.id none)

namespace Scope

variable (scope : Scope) (value : FileId → TypeId → Literal → Option ConstantValue)

/-- A field says what is written; its default is the value of the literal at the type it stores. -/
structure MirrorsField (file : FileId) (decl : FieldDecl) (field : Field ConstantValue) :
    Prop where
  header : field.header = decl.header
  id : field.id = decl.id
  requiredness : field.requiredness = decl.requiredness
  type : scope.Stores scope.graph file decl.type field.type
  default? : field.default? = decl.default?.bind (value file field.type)

/-- A typedef says what is written, and the graph knows what it stands for. -/
structure MirrorsTypedef (written : FileId × TypedefDecl) (typedef : TypedefType) : Prop where
  header : typedef.header = written.2.header
  file : typedef.file = written.1
  target : scope.Stores scope.graph written.1 written.2.target typedef.target
  declares : scope.graph.user? typedef.id =
    some (.linked scope.files written.1 written.2.header .typedef typedef.id (some typedef.target))

/-- An enum says what is written. -/
structure MirrorsEnum (written : FileId × EnumDecl) (enum : EnumType) : Prop where
  header : enum.header = written.2.header
  file : enum.file = written.1
  members : enum.members = (linkMembers 0 written.2.members).1
  declares : scope.graph.user? enum.id =
    some (.linked scope.files written.1 written.2.header .enum enum.id none)

/-- A struct, a union or an exception says what is written. -/
structure MirrorsStruct (written : FileId × StructDecl) (struct : StructType ConstantValue) :
    Prop where
  header : struct.header = written.2.header
  file : struct.file = written.1
  kind : struct.kind = written.2.kind
  fields : List.Forall₂ (scope.MirrorsField value written.1) written.2.fields struct.fields
  declares : scope.graph.user? struct.id =
    some (.linked scope.files written.1 written.2.header (.struct written.2.kind) struct.id none)

/-- A method says what is written. -/
structure MirrorsMethod (file : FileId) (decl : FunctionDecl) (method : Method ConstantValue) :
    Prop where
  header : method.header = decl.header
  oneWay : method.oneWay = decl.oneWay
  returnType : scope.Stores scope.graph file decl.returnType method.returnType
  parameters : List.Forall₂ (scope.MirrorsField value file) decl.parameters method.parameters
  exceptions : List.Forall₂ (scope.MirrorsField value file) decl.exceptions method.exceptions

/-- A service says what is written. -/
structure MirrorsService (written : FileId × ServiceDecl) (service : ServiceType ConstantValue) :
    Prop where
  header : service.header = written.2.header
  file : service.file = written.1
  base? : scope.LinksBase scope.graph written.1 written.2.base? service.base?
  methods : List.Forall₂ (scope.MirrorsMethod value written.1) written.2.functions service.methods
  declares : scope.graph.user? service.id =
    some (.linked scope.files written.1 written.2.header .service service.id none)

/-- A constant says what is written, if its literal has a value at its type. -/
def MirrorsConstant (written : FileId × ConstantDecl) (constant? : Option (Constant ConstantValue)) :
    Prop :=
  ∃ type, scope.Stores scope.graph written.1 written.2.type type ∧
    constant? = (value written.1 type written.2.value).map fun value =>
      { header := written.2.header, file := written.1, type, value }

end Scope

namespace FileTable

variable (files : FileTable) (order : List FileId) (warnDeprecated : Bool)

/-- What names stand for once everything is linked. -/
def linkedScope : Scope :=
  { files, graph := (files.link order warnDeprecated).graph, warnDeprecated }

/-- The values of all constants, by their places. -/
def constantValues : Nat → Option ConstantValue :=
  (files.checked order warnDeprecated).2.value?

/-- The value of a literal in a file at a type, given those of all constants. -/
def literalValue : FileId → TypeId → Literal → Option ConstantValue :=
  (files.constantScope order warnDeprecated).elaborate (files.constantValues order warnDeprecated)

/-- The linked model mirrors what is written in some files, and the graph mirrors the model. -/
structure MirrorsTrees : Prop where
  typedefs : List.Forall₂ (files.linkedScope order warnDeprecated).MirrorsTypedef
    (files.written order (·.keptTypedefs)) (files.link order warnDeprecated).model.typedefs
  enums : List.Forall₂ (files.linkedScope order warnDeprecated).MirrorsEnum
    (files.written order (·.keptEnums)) (files.link order warnDeprecated).model.enums
  structs : List.Forall₂ ((files.linkedScope order warnDeprecated).MirrorsStruct
      (files.literalValue order warnDeprecated))
    (files.written order (·.keptStructs)) (files.link order warnDeprecated).model.structs
  services : List.Forall₂ ((files.linkedScope order warnDeprecated).MirrorsService
      (files.literalValue order warnDeprecated))
    (files.written order (·.keptServices)) (files.link order warnDeprecated).model.services
  /-- Constants without a value are left out. -/
  constants : ∃ constants,
    List.Forall₂ ((files.linkedScope order warnDeprecated).MirrorsConstant
        (files.literalValue order warnDeprecated))
      (files.written order (·.keptConstants)) constants ∧
    (files.link order warnDeprecated).model.constants = constants.filterMap id
  /-- The values that literals refer to are those by plain recursion. -/
  values : ∀ index, (files.constantScope order warnDeprecated).Correct index
    (files.constantValues order warnDeprecated index)
  /-- The same comes out where defaults are put in their places after all of them were checked. -/
  filled : (files.constantScope order warnDeprecated).fillModel
      (files.constantScope order warnDeprecated).initialState =
    ((files.link order warnDeprecated).model, (files.checked order warnDeprecated).2)
  /-- All other declarations are reported. -/
  repeated : ((files.link order warnDeprecated).reported.ofKind .duplicateSymbol).map (·.placed) =
    (files.written order (·.repeatedHeaders)).map fun (_, header) => header.duplicate
  /-- The graph has no other declared types than the model, and each of them is linked. -/
  users : (files.link order warnDeprecated).graph.users.Perm
    ((files.link order warnDeprecated).model.linkedTypes files)
  resolves : ∀ id, (files.link order warnDeprecated).graph.resolve id =
    .ok (((files.link order warnDeprecated).graph.shape? id).getD .invalid)

end FileTable

/-! ## Values -/

namespace ConstantScope

variable {scope : ConstantScope} {values : Nat → Option ConstantValue}

/-- The right value of a constant is that of its literal, also where a cycle keeps it from being. -/
theorem eq_elaborateAt (correct : ∀ index, scope.Correct index (values index)) (index : Nat) :
    values index = scope.elaborateAt values index := by
  by_cases cyclic : scope.ReachesCycle index
  · obtain ⟨other, ⟨reference, member, rfl⟩, cyclic'⟩ := cyclic.exists_refers
    have absent : scope.answer values reference = none := by
      rw [answer, (correct _).absent cyclic', accept_none]
    rw [(correct index).absent cyclic, elaborateAt_eq, Plan.evaluate_eq_none member absent]
  · have elaborates := (correct index).elaborates cyclic
    generalize values index = value? at elaborates
    cases elaborates with
    | @intro _ inner recursion =>
        rw [elaborateAt_eq, elaborateAt_eq]
        refine Plan.evaluate_congr fun reference member => ?_
        have refers : scope.Refers index reference.index := ⟨reference, member, rfl⟩
        have elaborates' := (correct reference.index).elaborates fun cyclic' =>
          cyclic (.of_refers refers cyclic')
        rw [answer, answer, (recursion _ refers).unique elaborates']

/-- The constants of a model are those whose literals have values. -/
theorem constants_elaborateModel (same : ∀ index, values index = scope.elaborateAt values index) :
    (scope.elaborateModel values).constants = (scope.model.constants.map fun constant =>
      (scope.elaborate values constant.file constant.type constant.value).map fun value =>
        ({ header := constant.header, file := constant.file, type := constant.type, value } :
          Constant ConstantValue)).filterMap id := by
  have firsts : scope.model.constants.zipIdx.map Prod.fst = scope.model.constants := by simp
  rw [elaborateModel, List.filterMap_map]
  conv_rhs => rw [← firsts]
  rw [List.filterMap_map]
  refine List.filterMap_congr fun entry member => ?_
  obtain ⟨constant, index⟩ := entry
  have found := List.mem_zipIdx_iff_getElem?.mp member
  show (values index).map _ = _
  rw [same, elaborateAt, found, Option.bind_some]
  rfl

end ConstantScope

/-! ## Names and types -/

/-- What a name stands for depends on the files and on the names of declared types. -/
theorem Scope.resolveName_congr {scope scope' : Scope} (files : scope'.files = scope.files)
    (lookup : scope'.graph.lookup = scope.graph.lookup) (file : FileId) (name : String) :
    scope'.resolveName file name = scope.resolveName file name := by
  simp only [resolveName, resolveDeclared, resolveQualified, resolveUnqualified, includesQualified,
    files, lookup]

/-- What a reference stands for depends on the files and on the names of declared types. -/
theorem Scope.denote_congr {scope scope' : Scope} (files : scope'.files = scope.files)
    (lookup : scope'.graph.lookup = scope.graph.lookup) (file : FileId)
    (reference : TypeReference) : scope'.denote file reference = scope.denote file reference := by
  induction reference with
  | named _ name _ => rw [denote, denote, resolveName_congr files lookup]
  | list _ element _ induction => rw [denote, denote, induction]
  | set _ element _ induction => rw [denote, denote, induction]
  | map _ key value _ induction induction' => rw [denote, denote, induction, induction']

namespace FileTable

variable (files : FileTable) (order : List FileId) (warnDeprecated : Bool)

theorem lookup_literals : (files.literals order warnDeprecated).2.lookup =
    (files.typeScope order warnDeprecated).graph.lookup :=
  (links_literals files order warnDeprecated).grows.lookup_eq

/-- A stored type is what its reference stands for once everything is linked. -/
theorem stores_linkedScope {file : FileId} {reference : TypeReference} {id : TypeId}
    (stores : (files.typeScope order warnDeprecated).Stores (files.literals order warnDeprecated).2
      file reference id) :
    (files.linkedScope order warnDeprecated).Stores (files.linkedScope order warnDeprecated).graph
      file reference id where
  inside := stores.inside
  expression := by
    have same : (files.linkedScope order warnDeprecated).denote file reference =
        (files.typeScope order warnDeprecated).denote file reference :=
      @Scope.denote_congr (files.typeScope order warnDeprecated)
        (files.linkedScope order warnDeprecated) rfl (files.lookup_literals order warnDeprecated)
        file reference
    exact stores.expression.trans same.symm

/-- The graph knows a declared type as linked. -/
theorem user?_linked {file : FileId} {header : Header} {kind : UserTypeKind} {id : TypeId}
    (member : .declared files file header kind id ∈ (files.declared order).1.flatMap (·.users files))
    {target? : Option TypeId} (target : ∀ user,
      (files.literals order warnDeprecated).2.user? id = some user → user.target? = target?) :
    (files.literals order warnDeprecated).2.user? id =
      some (.linked files file header kind id target?) := by
  have listed := (mem_users_typeScope files order warnDeprecated _).mpr member
  have found := (wellFormed_typeScope files order warnDeprecated).user?_of_mem listed
  obtain ⟨user, found', progress⟩ :=
    (links_literals files order warnDeprecated).grows.user? found
  have resolved := isPending_literals files order warnDeprecated id
  change (files.literals order warnDeprecated).2.user? id = some user at found'
  rw [isPending, found', Option.any_some, Bool.not_eq_false'] at resolved
  rw [found', Option.some.injEq]
  exact UserType.eq_of_declaration progress.declaration (target user found') resolved

/-- The graph knows a type that no typedef declares as linked. -/
theorem user?_linked_of_ne {file : FileId} {header : Header} {kind : UserTypeKind} {id : TypeId}
    (member : .declared files file header kind id ∈ (files.declared order).1.flatMap (·.users files))
    (other : kind ≠ .typedef) : (files.literals order warnDeprecated).2.user? id =
      some (.linked files file header kind id none) := by
  refine files.user?_linked order warnDeprecated member fun user found => ?_
  obtain ⟨_, _, at_index⟩ := user?_eq_some_iff.mp found
  have same := kind?_literals_of_mem files order warnDeprecated member
  change (files.literals order warnDeprecated).2.kind? id = some kind at same
  rw [kind?, found, Option.map_some, Option.some.injEq] at same
  exact target?_literals (List.mem_of_getElem? at_index) (same ▸ other)

theorem user?_of_mem_typedefs {typedef : TypedefType}
    (member : typedef ∈ (files.literals order warnDeprecated).1.typedefs) :
    (files.literals order warnDeprecated).2.user? typedef.id =
      some (.linked files typedef.file typedef.header .typedef typedef.id (some typedef.target)) := by
  obtain ⟨accepted, listed, linked⟩ :=
    (linksModel_literals files order warnDeprecated).typedefs.exists_of_mem_right member
  obtain ⟨user, found, target⟩ := linked.aliased
  rw [linked.id] at found
  rw [linked.file, linked.header, linked.id]
  refine files.user?_linked order warnDeprecated (mem_users_iff.mpr (.inl ⟨accepted, listed, rfl⟩))
    fun user' found' => ?_
  rw [found, Option.some.injEq] at found'
  exact found' ▸ target

theorem user?_of_mem_enums {enum : EnumType}
    (member : enum ∈ (files.literals order warnDeprecated).1.enums) :
    (files.literals order warnDeprecated).2.user? enum.id =
      some (.linked files enum.file enum.header .enum enum.id none) := by
  obtain ⟨accepted, listed, linked⟩ :=
    (linksModel_literals files order warnDeprecated).enums.exists_of_mem_right member
  rw [linked.same]
  exact files.user?_linked_of_ne order warnDeprecated
    (mem_users_iff.mpr (.inr (.inl ⟨accepted, listed, rfl⟩))) UserTypeKind.noConfusion

theorem user?_of_mem_structs {struct : StructType Literal}
    (member : struct ∈ (files.literals order warnDeprecated).1.structs) :
    (files.literals order warnDeprecated).2.user? struct.id =
      some (.linked files struct.file struct.header (.struct struct.kind) struct.id none) := by
  obtain ⟨accepted, listed, linked⟩ :=
    (linksModel_literals files order warnDeprecated).structs.exists_of_mem_right member
  rw [linked.file, linked.header, linked.kind, linked.id]
  exact files.user?_linked_of_ne order warnDeprecated
    (mem_users_iff.mpr (.inr (.inr (.inl ⟨accepted, listed, rfl⟩)))) UserTypeKind.noConfusion

theorem user?_of_mem_services {service : ServiceType Literal}
    (member : service ∈ (files.literals order warnDeprecated).1.services) :
    (files.literals order warnDeprecated).2.user? service.id =
      some (.linked files service.file service.header .service service.id none) := by
  obtain ⟨accepted, listed, linked⟩ :=
    (linksModel_literals files order warnDeprecated).services.exists_of_mem_right member
  rw [linked.file, linked.header, linked.id]
  exact files.user?_linked_of_ne order warnDeprecated
    (mem_users_iff.mpr (.inr (.inr (.inr ⟨accepted, listed, rfl⟩)))) UserTypeKind.noConfusion

/-- The graph has the types that the model declares, each of them linked. -/
theorem users_perm_linkedTypes : (files.literals order warnDeprecated).2.users.Perm
    ((files.literals order warnDeprecated).1.linkedTypes files) := by
  have grows := (links_literals files order warnDeprecated).grows
  -- Each type that was declared is replaced by the one that the final graph has in its place.
  have users : (files.literals order warnDeprecated).2.users =
      (files.typeScope order warnDeprecated).graph.users.map fun user =>
        ((files.literals order warnDeprecated).2.user? user.id).getD user := by
    refine List.ext_getElem ?_ fun index inside inside' => ?_
    · rw [List.length_map]
      exact grows.length
    · rw [List.length_map] at inside'
      obtain ⟨user', found', progress⟩ :=
        grows.progress index _ (List.getElem?_eq_getElem inside')
      have at_user' := (wellFormed_literals files order warnDeprecated).user?_of_mem
        (List.mem_of_getElem? found')
      rw [progress.id_eq] at at_user'
      rw [List.getElem?_eq_getElem inside, Option.some.injEq] at found'
      rw [List.getElem_map, at_user', Option.getD_some, found']
  have replaced {α : Type} {list : List α} {before after : α → UserType}
      (each : ∀ a ∈ list, (files.literals order warnDeprecated).2.user? (before a).id =
        some (after a)) :
      list.map (fun a => ((files.literals order warnDeprecated).2.user? (before a).id).getD
        (before a)) = list.map after :=
    List.map_congr_left fun a member => by rw [each a member, Option.getD_some]
  rw [users]
  refine ((declaredTypes_perm files order warnDeprecated).symm.map _).trans (.of_eq ?_)
  simp only [Model.declaredTypes, Model.linkedTypes, List.map_append, List.map_map]
  exact congr (congrArg _ (congr (congrArg _ (congr (congrArg _
    (replaced fun _ => files.user?_of_mem_typedefs order warnDeprecated))
    (replaced fun _ => files.user?_of_mem_enums order warnDeprecated)))
    (replaced fun _ => files.user?_of_mem_structs order warnDeprecated)))
    (replaced fun _ => files.user?_of_mem_services order warnDeprecated)

/-! ## What linking mirrors -/

section

variable {files order warnDeprecated}

theorem mirrorsFields {file : FileId} {decls : List FieldDecl} {fields : List (Field Literal)}
    (links : List.Forall₂ ((files.typeScope order warnDeprecated).LinksField
      (files.literals order warnDeprecated).2 file) decls fields) :
    List.Forall₂ ((files.linkedScope order warnDeprecated).MirrorsField
        (files.literalValue order warnDeprecated) file) decls
      (fields.map ((files.constantScope order warnDeprecated).elaborateField
        (files.constantValues order warnDeprecated) file)) := by
  rw [List.forall₂_map_right_iff]
  exact links.imp fun decl field linked => ⟨linked.header, linked.id, linked.requiredness,
    files.stores_linkedScope order warnDeprecated linked.type,
    congrArg (·.bind (files.literalValue order warnDeprecated file field.type)) linked.default?⟩

theorem mirrorsMethods {file : FileId} {decls : List FunctionDecl} {methods : List (Method Literal)}
    (links : List.Forall₂ ((files.typeScope order warnDeprecated).LinksMethod
      (files.literals order warnDeprecated).2 file) decls methods) :
    List.Forall₂ ((files.linkedScope order warnDeprecated).MirrorsMethod
        (files.literalValue order warnDeprecated) file) decls
      (methods.map ((files.constantScope order warnDeprecated).elaborateMethod
        (files.constantValues order warnDeprecated) file)) := by
  rw [List.forall₂_map_right_iff]
  exact links.imp fun decl method linked => ⟨linked.header, linked.oneWay,
    files.stores_linkedScope order warnDeprecated linked.returnType,
    mirrorsFields linked.parameters, mirrorsFields linked.exceptions⟩

theorem linksBase_linkedScope {file : FileId} {reference? : Option TypeReference}
    {base? : Option TypeId} (links : (files.typeScope order warnDeprecated).LinksBase
      (files.literals order warnDeprecated).2 file reference? base?) :
    (files.linkedScope order warnDeprecated).LinksBase
      (files.linkedScope order warnDeprecated).graph file reference? base? := by
  cases links with
  | none => exact .none
  | failed stores => exact .failed (files.stores_linkedScope order warnDeprecated stores)
  | some stores valid => exact .some (files.stores_linkedScope order warnDeprecated stores) valid

end

/-- The problems of duplicate names are those of declaring names. -/
theorem ofKind_duplicateSymbol_link :
    (files.link order warnDeprecated).reported.ofKind .duplicateSymbol =
      (files.declared order).1.flatMap (·.problems) := by
  rw [link_eq, ofKind_append, ofKind_append, ofKind_append,
    ((files.typeScope order warnDeprecated).among_typeProblems _).ofKind_eq_nil (by decide),
    (TypedefType.among_cycleProblems _ _).ofKind_eq_nil (by decide),
    (among_checked files order warnDeprecated).ofKind_eq_nil (by decide),
    (among_declared files order).ofKind_eq_self, List.append_nil, List.append_nil, List.append_nil]

/-- Every type is resolved in the end. -/
theorem resolve_literals (id : TypeId) : (files.literals order warnDeprecated).2.resolve id =
    .ok (((files.literals order warnDeprecated).2.shape? id).getD .invalid) := by
  have none_pending : ((files.literals order warnDeprecated).2.expression id).users.find?
      (files.literals order warnDeprecated).2.isPending = none :=
    List.find?_eq_none.mpr fun other _ =>
      Bool.eq_false_iff.mp (isPending_literals files order warnDeprecated other)
  rw [resolve, none_pending]

/-- The model in the end has the values that constants were found to have. -/
theorem model_link_eq_elaborateModel : (files.link order warnDeprecated).model =
    (files.constantScope order warnDeprecated).elaborateModel
      (files.constantValues order warnDeprecated) := by
  rw [constantValues, checked, ConstantScope.state_checkModel]
  exact files.model_link order warnDeprecated _

theorem correct_constantValues (index : Nat) :
    (files.constantScope order warnDeprecated).Correct index
      (files.constantValues order warnDeprecated index) := by
  rw [constantValues, checked, ConstantScope.state_checkModel]
  exact ConstantScope.correct_settled _ _ index

/-- The final graph has the types that the final model declares, each of them linked. -/
theorem users_link_perm : (files.link order warnDeprecated).graph.users.Perm
    ((files.link order warnDeprecated).model.linkedTypes files) := by
  rw [files.model_link_eq_elaborateModel order warnDeprecated]
  refine (files.users_perm_linkedTypes order warnDeprecated).trans (.of_eq ?_)
  simp only [Model.linkedTypes, ConstantScope.elaborateModel, List.map_map]
  rfl

section

variable {order} (once : order.Nodup)

include once

theorem mirrorsTypedefs : List.Forall₂ (files.linkedScope order warnDeprecated).MirrorsTypedef
    (files.written order (·.keptTypedefs)) (files.link order warnDeprecated).model.typedefs := by
  rw [files.model_link_eq_elaborateModel order warnDeprecated]
  refine forall₂_written (accepted_eq_kept ((files.takesFirsts_declared once).imp
    fun _ _ taken => taken.typedefs)) (linksModel_literals files order warnDeprecated).typedefs
    fun accepted _ typedef member linked => ?_
  have known := files.user?_of_mem_typedefs order warnDeprecated member
  rw [linked.file, linked.header] at known
  exact ⟨linked.header, linked.file, files.stores_linkedScope order warnDeprecated linked.target,
    known⟩

theorem mirrorsEnums : List.Forall₂ (files.linkedScope order warnDeprecated).MirrorsEnum
    (files.written order (·.keptEnums)) (files.link order warnDeprecated).model.enums := by
  rw [files.model_link_eq_elaborateModel order warnDeprecated]
  refine forall₂_written (accepted_eq_kept ((files.takesFirsts_declared once).imp
    fun _ _ taken => taken.enums)) (linksModel_literals files order warnDeprecated).enums
    fun accepted _ enum member linked => ?_
  have known := files.user?_of_mem_enums order warnDeprecated member
  rw [linked.same] at known ⊢
  exact ⟨rfl, rfl, rfl, known⟩

theorem mirrorsStructs : List.Forall₂ ((files.linkedScope order warnDeprecated).MirrorsStruct
      (files.literalValue order warnDeprecated))
    (files.written order (·.keptStructs)) (files.link order warnDeprecated).model.structs := by
  rw [files.model_link_eq_elaborateModel order warnDeprecated, ConstantScope.elaborateModel,
    List.forall₂_map_right_iff]
  refine forall₂_written (accepted_eq_kept ((files.takesFirsts_declared once).imp
    fun _ _ taken => taken.structs)) (linksModel_literals files order warnDeprecated).structs
    fun accepted _ struct member linked => ?_
  have known := files.user?_of_mem_structs order warnDeprecated member
  rw [linked.file, linked.header, linked.kind] at known
  refine ⟨linked.header, linked.file, linked.kind, ?_, known⟩
  rw [ConstantScope.elaborateStruct, linked.file]
  exact mirrorsFields linked.fields

theorem mirrorsServices : List.Forall₂ ((files.linkedScope order warnDeprecated).MirrorsService
      (files.literalValue order warnDeprecated))
    (files.written order (·.keptServices)) (files.link order warnDeprecated).model.services := by
  rw [files.model_link_eq_elaborateModel order warnDeprecated, ConstantScope.elaborateModel,
    List.forall₂_map_right_iff]
  refine forall₂_written (accepted_eq_kept ((files.takesFirsts_declared once).imp
    fun _ _ taken => taken.services)) (linksModel_literals files order warnDeprecated).services
    fun accepted _ service member linked => ?_
  have known := files.user?_of_mem_services order warnDeprecated member
  rw [linked.file, linked.header] at known
  refine ⟨linked.header, linked.file, linksBase_linkedScope linked.base?, ?_, known⟩
  rw [ConstantScope.elaborateService, linked.file]
  exact mirrorsMethods linked.methods

theorem mirrorsConstants : ∃ constants,
    List.Forall₂ ((files.linkedScope order warnDeprecated).MirrorsConstant
        (files.literalValue order warnDeprecated))
      (files.written order (·.keptConstants)) constants ∧
    (files.link order warnDeprecated).model.constants = constants.filterMap id := by
  refine ⟨_, ?_, files.model_link_eq_elaborateModel order warnDeprecated ▸
    ConstantScope.constants_elaborateModel
      (ConstantScope.eq_elaborateAt (files.correct_constantValues order warnDeprecated))⟩
  rw [List.forall₂_map_right_iff]
  refine forall₂_written (accepted_eq_kept ((files.takesFirsts_declared once).imp
    fun _ _ taken => taken.constants)) (linksModel_literals files order warnDeprecated).constants
    fun accepted _ constant member linked => ?_
  refine ⟨constant.type, files.stores_linkedScope order warnDeprecated linked.type, ?_⟩
  rw [linked.header, linked.file, linked.value]
  rfl

end

/-- Where each file is linked once, the model mirrors what is written. -/
theorem mirrorsTrees {order : List FileId} (once : order.Nodup) :
    files.MirrorsTrees order warnDeprecated where
  typedefs := files.mirrorsTypedefs warnDeprecated once
  enums := files.mirrorsEnums warnDeprecated once
  structs := files.mirrorsStructs warnDeprecated once
  services := files.mirrorsServices warnDeprecated once
  constants := files.mirrorsConstants warnDeprecated once
  values := files.correct_constantValues order warnDeprecated
  filled := by
    rw [ConstantScope.fillModel_eq, link_eq]
    rfl
  repeated := by rw [ofKind_duplicateSymbol_link, files.placed_problems once]
  users := files.users_link_perm order warnDeprecated
  resolves := files.resolve_literals order warnDeprecated

/-- A file in which three names are taken twice, and two literals have no value at their type. -/
def crowdedTable : FileTable :=
  let location := Location.start "crowded.thrift"
  let named (name : String) : TypeReference := .named location name .empty
  let field (id : Int16) (name type : String) (default? : Option Literal) : FieldDecl :=
    ⟨.plain name location, id, .default, named type, default?⟩
  { files := [{
      path := "crowded.thrift"
      includes := []
      tree := { FileTree.empty "crowded.thrift" with
        typedefs := [⟨.plain "Id" location, named "i32"⟩]
        enums := [⟨.plain "Id" location, [⟨.plain "ONE" location, none⟩]⟩]
        structs := [
          ⟨.plain "Order" location, .struct, [field 1 "id" "Id" (some (.identifier location "SIZE")),
            field 2 "text" "string" (some (.integer location 1))]⟩,
          ⟨.plain "Order" location, .exception, [field 1 "id" "Missing" none]⟩]
        constants := [⟨.plain "SIZE" location, named "Id", .integer location 1⟩,
          ⟨.plain "SIZE" location, named "string", .string location "1"⟩,
          ⟨.plain "TEXT" location, named "string", .identifier location "SIZE"⟩] } }] }

set_option maxRecDepth 10000 in
theorem mirrorsTrees_crowdedTable : [FileId.mk 0].Nodup ∧
    (crowdedTable.written [⟨0⟩] (·.repeatedHeaders)).map (·.2.name) = ["Id", "Order", "SIZE"] ∧
    (crowdedTable.link [⟨0⟩] true).model.constants.map (·.name) = ["SIZE"] ∧
    crowdedTable.MirrorsTrees [⟨0⟩] true := by
  refine ⟨by decide, ?_, ?_, crowdedTable.mirrorsTrees true (by decide)⟩
  · cbv
  · cbv

end FileTable
end IdlSchema
