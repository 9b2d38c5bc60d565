import Mathlib.Tactic
import IdlSchema.Tree.FileTree

/-!
# Declarations that differ in types alone

Two declarations are alike if everything about them is the same but the types that they refer to,
which are related in some way.
-/

namespace IdlSchema

section

variable (related : TypeReference → TypeReference → Prop)

/-- Two fields are the same but for their types, which are related. -/
structure FieldDecl.Like (decl decl' : FieldDecl) : Prop where
  header : decl'.header = decl.header
  id : decl'.id = decl.id
  requiredness : decl'.requiredness = decl.requiredness
  type : related decl.type decl'.type
  default? : decl'.default? = decl.default?

/-- Two typedefs are the same but for their targets, which are related. -/
structure TypedefDecl.Like (decl decl' : TypedefDecl) : Prop where
  header : decl'.header = decl.header
  target : related decl.target decl'.target

/-- Two structs are the same but for the types of their fields, which are related. -/
structure StructDecl.Like (decl decl' : StructDecl) : Prop where
  header : decl'.header = decl.header
  kind : decl'.kind = decl.kind
  fields : List.Forall₂ (FieldDecl.Like related) decl.fields decl'.fields

/-- Two functions are the same but for their types, which are related. -/
structure FunctionDecl.Like (decl decl' : FunctionDecl) : Prop where
  header : decl'.header = decl.header
  oneWay : decl'.oneWay = decl.oneWay
  returnType : related decl.returnType decl'.returnType
  parameters : List.Forall₂ (FieldDecl.Like related) decl.parameters decl'.parameters
  exceptions : List.Forall₂ (FieldDecl.Like related) decl.exceptions decl'.exceptions

/-- Two services are the same but for their types, which are related. -/
structure ServiceDecl.Like (decl decl' : ServiceDecl) : Prop where
  header : decl'.header = decl.header
  base? : Option.Rel related decl.base? decl'.base?
  functions : List.Forall₂ (FunctionDecl.Like related) decl.functions decl'.functions

/-- Two constants are the same but for their types, which are related. -/
structure ConstantDecl.Like (decl decl' : ConstantDecl) : Prop where
  header : decl'.header = decl.header
  type : related decl.type decl'.type
  value : decl'.value = decl.value

/-- Two files declare types that are alike. -/
structure FileTree.TypesLike (tree tree' : FileTree) : Prop where
  typedefs : List.Forall₂ (TypedefDecl.Like related) tree.typedefs tree'.typedefs
  enums : tree'.enums = tree.enums
  structs : List.Forall₂ (StructDecl.Like related) tree.structs tree'.structs
  services : List.Forall₂ (ServiceDecl.Like related) tree.services tree'.services

end

/-! ## Types that are related to themselves -/

section

variable {related : TypeReference → TypeReference → Prop}
  (refl : ∀ reference, related reference reference)

include refl

theorem FieldDecl.like_refl (decl : FieldDecl) : decl.Like related decl :=
  ⟨rfl, rfl, rfl, refl decl.type, rfl⟩

theorem TypedefDecl.like_refl (decl : TypedefDecl) : decl.Like related decl :=
  ⟨rfl, refl decl.target⟩

theorem StructDecl.like_refl (decl : StructDecl) : decl.Like related decl :=
  ⟨rfl, rfl, List.forall₂_same.mpr fun field _ => field.like_refl refl⟩

theorem FunctionDecl.like_refl (decl : FunctionDecl) : decl.Like related decl :=
  ⟨rfl, rfl, refl decl.returnType, List.forall₂_same.mpr fun field _ => field.like_refl refl,
    List.forall₂_same.mpr fun field _ => field.like_refl refl⟩

theorem ServiceDecl.like_refl (decl : ServiceDecl) : decl.Like related decl where
  header := rfl
  base? := by
    cases decl.base? with
    | none => exact .none
    | some base => exact .some (refl base)
  functions := List.forall₂_same.mpr fun function _ => function.like_refl refl

theorem ConstantDecl.like_refl (decl : ConstantDecl) : decl.Like related decl :=
  ⟨rfl, refl decl.type, rfl⟩

theorem FileTree.typesLike_refl (tree : FileTree) : tree.TypesLike related tree where
  typedefs := List.forall₂_same.mpr fun typedef _ => typedef.like_refl refl
  enums := rfl
  structs := List.forall₂_same.mpr fun struct _ => struct.like_refl refl
  services := List.forall₂_same.mpr fun service _ => service.like_refl refl

end

/-! ## Weaker relations -/

section

variable {related weaker : TypeReference → TypeReference → Prop}
  (weaken : ∀ reference reference', related reference reference' → weaker reference reference')

include weaken

theorem FieldDecl.Like.imp {decl decl' : FieldDecl} (like : decl.Like related decl') :
    decl.Like weaker decl' :=
  ⟨like.header, like.id, like.requiredness, weaken _ _ like.type, like.default?⟩

theorem TypedefDecl.Like.imp {decl decl' : TypedefDecl} (like : decl.Like related decl') :
    decl.Like weaker decl' :=
  ⟨like.header, weaken _ _ like.target⟩

theorem StructDecl.Like.imp {decl decl' : StructDecl} (like : decl.Like related decl') :
    decl.Like weaker decl' :=
  ⟨like.header, like.kind, List.Forall₂.imp (fun _ _ field => field.imp weaken) like.fields⟩

theorem FunctionDecl.Like.imp {decl decl' : FunctionDecl} (like : decl.Like related decl') :
    decl.Like weaker decl' where
  header := like.header
  oneWay := like.oneWay
  returnType := weaken _ _ like.returnType
  parameters := List.Forall₂.imp (fun _ _ field => field.imp weaken) like.parameters
  exceptions := List.Forall₂.imp (fun _ _ field => field.imp weaken) like.exceptions

theorem ServiceDecl.Like.imp {decl decl' : ServiceDecl} (like : decl.Like related decl') :
    decl.Like weaker decl' where
  header := like.header
  base? := by
    have base := like.base?
    generalize decl.base? = base?, decl'.base? = base?' at base
    cases base with
    | none => exact .none
    | some holds => exact .some (weaken _ _ holds)
  functions := List.Forall₂.imp (fun _ _ function => function.imp weaken) like.functions

theorem ConstantDecl.Like.imp {decl decl' : ConstantDecl} (like : decl.Like related decl') :
    decl.Like weaker decl' :=
  ⟨like.header, weaken _ _ like.type, like.value⟩

theorem FileTree.TypesLike.imp {tree tree' : FileTree} (like : tree.TypesLike related tree') :
    tree.TypesLike weaker tree' where
  typedefs := List.Forall₂.imp (fun _ _ typedef => typedef.imp weaken) like.typedefs
  enums := like.enums
  structs := List.Forall₂.imp (fun _ _ struct => struct.imp weaken) like.structs
  services := List.Forall₂.imp (fun _ _ service => service.imp weaken) like.services

end

end IdlSchema
