import IdlSchema.Proofs.Constants.RenumberedChecks
import IdlSchema.Proofs.Link.RenumberedScopes
import IdlSchema.Proofs.Link.ShuffledFiles

/-!
# Linking in another order

What is written in some files is the same in any order, and each declaration of the model says what
was written.  Two orders therefore lead to models that are alike: they have the same declarations,
with types that read the same, although each type may have another place.
-/

namespace IdlSchema

open Diagnostics FileDeclarations TypeGraph

namespace FileTable

/-! ## Types that were written -/

section

variable (files : FileTable) (order : List FileId) (warnDeprecated : Bool)

/-- What is written of a declared type stays as it is. -/
theorem written_literals {id : TypeId} {user : UserType}
    (found : (files.declared order).2.graph.user? id = some user) :
    ∃ user', (files.literals order warnDeprecated).2.user? id = some user' ∧
      user'.written = user.written := by
  obtain ⟨user', found', progress⟩ := (links_literals files order warnDeprecated).grows.user? found
  exact ⟨user', found', progress.written_eq⟩

theorem users_literals : (files.literals order warnDeprecated).2.users.map UserType.written =
    (files.declared order).2.graph.users.map UserType.written := by
  have grows := (links_literals files order warnDeprecated).grows
  refine List.ext_getElem ?_ fun index inside inside' => ?_
  · rw [List.length_map, List.length_map]
    exact grows.length
  rw [List.length_map] at inside inside'
  obtain ⟨user', found', progress⟩ :=
    grows.progress index _ (List.getElem?_eq_getElem inside')
  rw [List.getElem?_eq_getElem inside, Option.some.injEq] at found'
  rw [List.getElem_map, List.getElem_map, found', progress.written_eq]

theorem nodup_keys_literals : ((files.literals order warnDeprecated).2.users.map (·.key)).Nodup := by
  have keys (users : List UserType) : users.map (·.key) = (users.map UserType.written).map (·.key) := by
    rw [List.map_map]
    rfl
  rw [keys, users_literals, ← keys]
  exact (apart_declared files order).nodup

/-- A type that was declared reads as its name in its file. -/
theorem reading_of_mem_users {user : UserType}
    (member : user ∈ (files.declared order).1.flatMap (·.users files)) :
    user.id.index < (files.literals order warnDeprecated).2.size ∧
      (files.literals order warnDeprecated).2.reading user.id = .user user.key := by
  have listed := (mem_users_typeScope files order warnDeprecated user).mpr member
  have found := (wellFormed_typeScope files order warnDeprecated).user?_of_mem listed
  obtain ⟨user', found', same⟩ := written_literals files order warnDeprecated found
  obtain ⟨_, _, at_index⟩ := user?_eq_some_iff.mp found'
  have wellFormed := wellFormed_literals files order warnDeprecated
  rw [← wellFormed.id_of_user? found', ← UserType.key_eq_of_written same]
  exact wellFormed.reading_of_mem (List.mem_of_getElem? at_index)

/-- A stored type reads as what the reference stands for. -/
theorem reading_of_stores {file : FileId} {reference : TypeReference} {id : TypeId}
    (stores : (files.typeScope order warnDeprecated).Stores (files.literals order warnDeprecated).2 file
      reference id) :
    (files.literals order warnDeprecated).2.reading id =
      ((files.typeScope order warnDeprecated).denote file reference).renamed
        (files.typeScope order warnDeprecated).graph.key := by
  have wellFormed := wellFormed_typeScope files order warnDeprecated
  rw [reading, stores.expression]
  -- All declared types in the expression were known before types were linked.
  refine TypeExpression.renamed_congr fun id member => ?_
  obtain ⟨index, at_shape⟩ := Scope.declares_denote wellFormed file reference id member
  obtain ⟨user, found⟩ := wellFormed.exists_user? at_shape
  obtain ⟨user', found', same⟩ := written_literals files order warnDeprecated found
  rw [key_of_user? found', key_of_user? found, UserType.key_eq_of_written same]

end

variable {files files' : FileTable} {order order' : List FileId} {warnDeprecated : Bool}

theorem alike_of_mem_users {user user' : UserType}
    (member : user ∈ (files.declared order).1.flatMap (·.users files))
    (member' : user' ∈ (files'.declared order').1.flatMap (·.users files'))
    (same : user'.key = user.key) :
    (files.literals order warnDeprecated).2.Alike (files'.literals order' warnDeprecated).2
      user.id user'.id := by
  obtain ⟨inside, reads⟩ := reading_of_mem_users files order warnDeprecated member
  obtain ⟨inside', reads'⟩ := reading_of_mem_users files' order' warnDeprecated member'
  exact ⟨inside, inside', by rw [reads, reads', same]⟩

namespace Rearranges

variable (rearranges : files.Rearranges order files' order')
  (clear : Clear ((files.declared order).1.flatMap (·.problems)))

include rearranges clear

/-- References mean the same in both orders. -/
theorem renumbers_typeScope (warnDeprecated : Bool) :
    (files.typeScope order warnDeprecated).Renumbers (files'.typeScope order' warnDeprecated) where
  graph := rearranges.renumbers_declared clear
  includes := rearranges.files.includes
  qualifier := rearranges.files.qualifier
  path := rearranges.files.path
  warnDeprecated := rfl

/-- The types of the same reference are alike. -/
theorem alike_of_stores {file : FileId} {reference : TypeReference} {id id' : TypeId}
    (stores : (files.typeScope order warnDeprecated).Stores (files.literals order warnDeprecated).2 file
      reference id)
    (stores' : (files'.typeScope order' warnDeprecated).Stores (files'.literals order' warnDeprecated).2
      file reference id') :
    (files.literals order warnDeprecated).2.Alike (files'.literals order' warnDeprecated).2 id id' where
  inside := stores.inside
  inside' := stores'.inside
  reading := by
    have scopes := rearranges.renumbers_typeScope clear warnDeprecated
    rw [reading_of_stores files order warnDeprecated stores,
      reading_of_stores files' order' warnDeprecated stores']
    exact (scopes.denote_alike file reference).renamed_eq scopes.graph
      (Scope.declares_denote (wellFormed_typeScope files order warnDeprecated) file reference)

/-! ## Declarations that were written -/

theorem alike_fields {file : FileId} {decls : List FieldDecl} {fields fields' : List (Field Literal)}
    (links : List.Forall₂ ((files.typeScope order warnDeprecated).LinksField
      (files.literals order warnDeprecated).2 file) decls fields)
    (links' : List.Forall₂ ((files'.typeScope order' warnDeprecated).LinksField
      (files'.literals order' warnDeprecated).2 file) decls fields') :
    List.Forall₂ (Field.Alike ((files.literals order warnDeprecated).2.Alike
      (files'.literals order' warnDeprecated).2) Eq) fields fields' := by
  have same : List.Forall₂ (· = ·) decls decls := List.forall₂_refl decls
  refine links.square same links' ?_
  rintro decl field _ field' linked rfl linked'
  refine ⟨linked'.header.trans linked.header.symm, linked'.id.trans linked.id.symm,
    linked'.requiredness.trans linked.requiredness.symm,
    rearranges.alike_of_stores clear linked.type linked'.type, ?_⟩
  rw [linked.default?, linked'.default?]
  cases decl.default? with
  | none => exact .none
  | some literal => exact .some rfl

theorem alike_methods {file : FileId} {decls : List FunctionDecl}
    {methods methods' : List (Method Literal)}
    (links : List.Forall₂ ((files.typeScope order warnDeprecated).LinksMethod
      (files.literals order warnDeprecated).2 file) decls methods)
    (links' : List.Forall₂ ((files'.typeScope order' warnDeprecated).LinksMethod
      (files'.literals order' warnDeprecated).2 file) decls methods') :
    List.Forall₂ (Method.Alike ((files.literals order warnDeprecated).2.Alike
      (files'.literals order' warnDeprecated).2) Eq) methods methods' := by
  have same : List.Forall₂ (· = ·) decls decls := List.forall₂_refl decls
  refine links.square same links' ?_
  rintro decl method _ method' linked rfl linked'
  exact ⟨linked'.header.trans linked.header.symm, linked'.oneWay.trans linked.oneWay.symm,
    rearranges.alike_of_stores clear linked.returnType linked'.returnType,
    rearranges.alike_fields clear linked.parameters linked'.parameters,
    rearranges.alike_fields clear linked.exceptions linked'.exceptions⟩

/-- The bases of a service are alike, or they failed in both orders. -/
theorem alike_bases {file : FileId} {reference? : Option TypeReference} {base? base?' : Option TypeId}
    (links : (files.typeScope order warnDeprecated).LinksBase
      (files.literals order warnDeprecated).2 file reference? base?)
    (links' : (files'.typeScope order' warnDeprecated).LinksBase
      (files'.literals order' warnDeprecated).2 file reference? base?') :
    Option.Rel ((files.literals order warnDeprecated).2.Alike
      (files'.literals order' warnDeprecated).2) base? base?' := by
  have invalid {id id' : TypeId} (alike : (files.literals order warnDeprecated).2.Alike
      (files'.literals order' warnDeprecated).2 id id') : id' = .invalid ↔ id = .invalid :=
    alike.eq_invalid_iff (wellFormed_literals files order warnDeprecated)
      (wellFormed_literals files' order' warnDeprecated)
  cases links with
  | none =>
      cases links'
      exact .none
  | failed stores =>
      cases links' with
      | failed _ => exact .none
      | some stores' valid' =>
          exact absurd ((invalid (rearranges.alike_of_stores clear stores stores')).mpr rfl) valid'
  | some stores valid =>
      cases links' with
      | failed stores' =>
          exact absurd ((invalid (rearranges.alike_of_stores clear stores stores')).mp rfl) valid
      | some stores' _ => exact .some (rearranges.alike_of_stores clear stores stores')

end Rearranges

/-- Declarations that were linked correspond if the same declarations were accepted. -/
theorem corresponds_of_linked {δ ι β γ : Type} {accepteds accepteds' : List (FileId × δ × ι)}
    {linked : FileId × δ × ι → β → Prop} {linked' : FileId × δ × ι → γ → Prop}
    {related : β → γ → Prop} {results : List β} {results' : List γ}
    (links : List.Forall₂ linked accepteds results)
    (links' : List.Forall₂ linked' accepteds' results')
    (perm : (accepteds.map fun (file, decl, _) => (file, decl)).Perm
      (accepteds'.map fun (file, decl, _) => (file, decl)))
    (fill : ∀ file decl id id' result result', (file, decl, id) ∈ accepteds →
      linked (file, decl, id) result → (file, decl, id') ∈ accepteds' →
      linked' (file, decl, id') result' → related result result') :
    Corresponds related results results' := by
  have written {δ ι β : Type} {accepteds : List (FileId × δ × ι)} {results : List β}
      {linked : FileId × δ × ι → β → Prop} (links : List.Forall₂ linked accepteds results) :
      List.Forall₂ (fun written result => ∃ id, (written.1, written.2, id) ∈ accepteds ∧
          linked (written.1, written.2, id) result)
        (accepteds.map fun (file, decl, _) => (file, decl)) results := by
    rw [List.forall₂_map_left_iff]
    exact links.imp_of_mem fun accepted member result holds => ⟨accepted.2.2, member, holds⟩
  refine .of_perm (written links) (written links') perm ?_
  rintro ⟨file, decl⟩ result result' ⟨id, member, holds⟩ ⟨id', member', holds'⟩
  exact fill file decl id id' result result' member holds member' holds'

namespace Rearranges

variable {files files' : FileTable} {order order' : List FileId} {warnDeprecated : Bool}
  (rearranges : files.Rearranges order files' order')
  (clear : Clear ((files.declared order).1.flatMap (·.problems)))

include rearranges clear

/-- The models of two orders are alike before values are checked. -/
theorem alike_literals (warnDeprecated : Bool) : (files.literals order warnDeprecated).1.Alike
    ((files.literals order warnDeprecated).2.Alike (files'.literals order' warnDeprecated).2) Eq
    (files'.literals order' warnDeprecated).1 := by
  have links := linksModel_literals files order warnDeprecated
  have links' := linksModel_literals files' order' warnDeprecated
  have accepts := acceptsAll_of_clear clear
  have accepts' := acceptsAll_of_clear (rearranges.clear_declared clear)
  constructor
  case typedefs =>
    refine corresponds_of_linked links.typedefs links'.typedefs ?_ ?_
    · rw [← acceptedTypedefs, ← acceptedTypedefs, accepts.typedefs, accepts'.typedefs]
      exact rearranges.written_perm fun _ _ shuffled => shuffled.typedefs
    · intro file decl id id' typedef typedef' member linked member' linked'
      refine ⟨linked'.header.trans linked.header.symm, linked'.file.trans linked.file.symm, ?_,
        rearranges.alike_of_stores clear linked.target linked'.target⟩
      rw [linked.id, linked'.id]
      exact alike_of_mem_users (mem_users_iff.mpr (.inl ⟨_, member, rfl⟩))
        (mem_users_iff.mpr (.inl ⟨_, member', rfl⟩)) rfl
  case enums =>
    refine corresponds_of_linked links.enums links'.enums ?_ ?_
    · rw [← acceptedEnums, ← acceptedEnums, accepts.enums, accepts'.enums]
      exact rearranges.written_perm fun _ _ shuffled => shuffled.enums
    · intro file decl id id' enum enum' member linked member' linked'
      rw [linked.same, linked'.same]
      refine ⟨rfl, rfl, ?_, rfl⟩
      exact alike_of_mem_users (mem_users_iff.mpr (.inr (.inl ⟨_, member, rfl⟩)))
        (mem_users_iff.mpr (.inr (.inl ⟨_, member', rfl⟩))) rfl
  case structs =>
    refine corresponds_of_linked links.structs links'.structs ?_ ?_
    · rw [← acceptedStructs, ← acceptedStructs, accepts.structs, accepts'.structs]
      exact rearranges.written_perm fun _ _ shuffled => shuffled.structs
    · intro file decl id id' struct struct' member linked member' linked'
      refine ⟨linked'.header.trans linked.header.symm, linked'.file.trans linked.file.symm, ?_,
        linked'.kind.trans linked.kind.symm, rearranges.alike_fields clear linked.fields linked'.fields⟩
      rw [linked.id, linked'.id]
      exact alike_of_mem_users
        (mem_users_iff.mpr (.inr (.inr (.inl ⟨_, member, rfl⟩))))
        (mem_users_iff.mpr (.inr (.inr (.inl ⟨_, member', rfl⟩)))) rfl
  case services =>
    refine corresponds_of_linked links.services links'.services ?_ ?_
    · rw [← acceptedServices, ← acceptedServices, accepts.services, accepts'.services]
      exact rearranges.written_perm fun _ _ shuffled => shuffled.services
    · intro file decl id id' service service' member linked member' linked'
      refine ⟨linked'.header.trans linked.header.symm, linked'.file.trans linked.file.symm, ?_,
        rearranges.alike_bases clear linked.base? linked'.base?,
        rearranges.alike_methods clear linked.methods linked'.methods⟩
      rw [linked.id, linked'.id]
      exact alike_of_mem_users
        (mem_users_iff.mpr (.inr (.inr (.inr ⟨_, member, rfl⟩))))
        (mem_users_iff.mpr (.inr (.inr (.inr ⟨_, member', rfl⟩)))) rfl
  case constants =>
    refine corresponds_of_linked links.constants links'.constants ?_ ?_
    · rw [← acceptedConstants, ← acceptedConstants, accepts.constants, accepts'.constants]
      exact rearranges.written_perm fun _ _ shuffled => shuffled.constants
    · intro file decl id id' constant constant' member linked member' linked'
      exact ⟨linked'.header.trans linked.header.symm, linked'.file.trans linked.file.symm,
        rearranges.alike_of_stores clear linked.type linked'.type,
        linked.value.trans linked'.value.symm⟩

end Rearranges

theorem memberProblems_eq (accepts : files.AcceptsAll order) :
    Scope.memberProblems ((files.declared order).1.flatMap (·.enums)) =
      (files.written order (·.enums)).flatMap fun (_, decl) => (linkMembers 0 decl.members).2 := by
  rw [← accepts.enums, List.flatMap_map]
  rfl

/-! ## Graphs behind linking -/

/-- Only typedefs stand for other types. -/
theorem target?_literals {user : UserType}
    (listed : user ∈ (files.literals order warnDeprecated).2.users) (other : user.kind ≠ .typedef) :
    user.target? = none := by
  have wellFormed := wellFormed_typeScope files order warnDeprecated
  have links := links_literals files order warnDeprecated
  have found := (wellFormed_literals files order warnDeprecated).user?_of_mem listed
  obtain ⟨before, found_before, progress⟩ :=
    links.grows.exists_user?_before wellFormed links.wellFormed found
  obtain ⟨_, _, at_index⟩ := user?_eq_some_iff.mp found_before
  have listed_before := List.mem_of_getElem? at_index
  refine (progress.target fun touched => other ?_).trans (target?_of_mem_declared listed_before)
  obtain ⟨accepted, member, same⟩ := List.mem_map.mp touched
  have declared := (mem_users_typeScope files order warnDeprecated _).mpr
    (mem_users_iff.mpr (.inl ⟨accepted, member, rfl⟩))
  rw [progress.kind_eq, ← List.inj_on_of_nodup_map wellFormed.nodup_ids declared listed_before same]
  rfl

namespace Rearranges

variable (rearranges : files.Rearranges order files' order')
  (clear : Clear ((files.declared order).1.flatMap (·.problems)))

include rearranges clear

theorem users_literals_perm (warnDeprecated : Bool) :
    ((files.literals order warnDeprecated).2.users.map UserType.written).Perm
      ((files'.literals order' warnDeprecated).2.users.map UserType.written) := by
  have users := (acceptsAll_of_clear clear).users_perm
  have users' := (acceptsAll_of_clear (rearranges.clear_declared clear)).users_perm
  rw [users_literals, users_literals]
  exact (users.trans rearranges.writtenTypes_perm).trans users'.symm

theorem alike_targets {user user' : UserType}
    (listed : user ∈ (files.literals order warnDeprecated).2.users)
    (listed' : user' ∈ (files'.literals order' warnDeprecated).2.users)
    (same : user'.written = user.written) :
    Option.Rel ((files.literals order warnDeprecated).2.Alike
      (files'.literals order' warnDeprecated).2) user.target? user'.target? := by
  have kind := UserType.kind_eq_of_written same
  by_cases is_typedef : user.kind = .typedef
  · have wellFormed := wellFormed_literals files order warnDeprecated
    have wellFormed' := wellFormed_literals files' order' warnDeprecated
    have complete := complete_literals files order warnDeprecated
    have found := wellFormed.user?_of_mem listed
    have found' := wellFormed'.user?_of_mem listed'
    obtain ⟨typedef, member, at_user⟩ := complete.listed _ user found is_typedef
    obtain ⟨typedef', member', alike⟩ :=
      (rearranges.alike_literals clear warnDeprecated).typedefs.exists_of_mem_left member
    -- The typedef that is like the first one is the second one, since both have the same name.
    have at_user' : typedef'.id = user'.id := by
      obtain ⟨inside', reads'⟩ := wellFormed'.reading_of_mem listed'
      refine wellFormed'.reading_inj (nodup_keys_literals files' order' warnDeprecated)
        alike.id.inside' inside' ?_
      rw [alike.id.reading, at_user, (wellFormed.reading_of_mem listed).2, reads',
        UserType.key_eq_of_written same]
    obtain ⟨_, at_typedef, _, target⟩ := complete.aliased typedef member
    obtain ⟨_, at_typedef', _, target'⟩ :=
      (complete_literals files' order' warnDeprecated).aliased typedef' member'
    rw [at_user, found, Option.some.injEq] at at_typedef
    rw [at_user', found', Option.some.injEq] at at_typedef'
    rw [at_typedef, at_typedef', target, target']
    exact .some alike.target
  · rw [target?_literals listed is_typedef, target?_literals listed' (kind ▸ is_typedef)]
    exact .none

/-- The graphs of two orders differ in their numbering alone. -/
theorem renumbers_literals (warnDeprecated : Bool) :
    (files.literals order warnDeprecated).2.Renumbers (files'.literals order' warnDeprecated).2 where
  wellFormed := wellFormed_literals files order warnDeprecated
  wellFormed' := wellFormed_literals files' order' warnDeprecated
  nodup := nodup_keys_literals files order warnDeprecated
  nodup' := nodup_keys_literals files' order' warnDeprecated
  users := (corresponds_of_written (rearranges.users_literals_perm clear warnDeprecated)).imp_of_mem
    fun _ listed _ listed' same => ⟨same, rearranges.alike_targets clear listed listed' same⟩

/-- The scopes in which values are checked differ in their numbering alone. -/
theorem renumbers_constantScope (warnDeprecated : Bool) :
    (files.constantScope order warnDeprecated).Renumbers
      (files'.constantScope order' warnDeprecated) where
  graph := rearranges.renumbers_literals clear warnDeprecated
  includes := rearranges.files.includes
  qualifier := rearranges.files.qualifier
  model := rearranges.alike_literals clear warnDeprecated
  apart := ⟨nodup_declaredTypes_ids files order warnDeprecated,
    distinct_constantScope files order warnDeprecated⟩
  apart' := ⟨nodup_declaredTypes_ids files' order' warnDeprecated,
    distinct_constantScope files' order' warnDeprecated⟩

/-! ## Problems of types -/

/-- The problems of types are the same in both orders. -/
theorem typeProblems_perm (warnDeprecated : Bool) :
    ((files.typeScope order warnDeprecated).typeProblems (files.declared order).1).Perm
      ((files'.typeScope order' warnDeprecated).typeProblems (files'.declared order').1) := by
  have clear' := rearranges.clear_declared clear
  have scopes := rearranges.renumbers_typeScope clear warnDeprecated
  have written := @Scope.typeProblems_perm (files.typeScope order warnDeprecated) _ _ _
    (files.records_declared order)
  have written' := @Scope.typeProblems_perm (files'.typeScope order' warnDeprecated) _ _ _
    (files'.records_declared order')
  refine written.trans (.trans (.append ?_ ?_) written'.symm)
  · rw [memberProblems_eq (acceptsAll_of_clear clear), memberProblems_eq (acceptsAll_of_clear clear')]
    exact (rearranges.written_perm fun _ _ shuffled => shuffled.enums).flatMap_right _
  · refine rearranges.flatMap_perm fun file => ?_
    have same : (files'.typeScope order' warnDeprecated).useProblems file =
        (files.typeScope order warnDeprecated).useProblems file :=
      funext fun use => scopes.useProblems_eq file use
    rw [same]
    exact (rearranges.files.tree file).uses.flatMap_right _

end Rearranges
end FileTable
end IdlSchema
