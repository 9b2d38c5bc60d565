import IdlSchema.Proofs.Tree.Likeness
import IdlSchema.Tree.TypeUse

/-!
# Files in which type names are replaced

Some of the names of types in a file may become others.  All else stays as it is written, above all
where things stand, so the names of the two files correspond place by place.
-/

namespace IdlSchema

/-- What stands in a list of names where another list has another name. -/
def replacedNames (names names' : List (Location × String)) : List (Location × String) :=
  ((names.zip names').filter fun pair => pair.1.2 != pair.2.2).map (·.2)

theorem replacedNames_append {names names' others others' : List (Location × String)}
    (lengths : names.length = names'.length) :
    replacedNames (names ++ others) (names' ++ others') =
      replacedNames names names' ++ replacedNames others others' := by
  rw [replacedNames, List.zip_append lengths, List.filter_append, List.map_append]
  rfl

namespace TypeReference

/-- The names in a reference with their positions, from left to right. -/
def names : TypeReference → List (Location × String)
  | named location name _ => [(location, name)]
  | list _ element _ => element.names
  | set _ element _ => element.names
  | map _ key value _ => key.names ++ value.names

variable (fits : String → Prop)

/-- A reference is another one in which some names became others that fit. -/
inductive Renamed : TypeReference → TypeReference → Prop where
  | kept (location : Location) (name : String) (annotations : Annotations) :
      Renamed (.named location name annotations) (.named location name annotations)
  | replaced (location : Location) {name name' : String} (annotations : Annotations) :
      name ≠ name' → fits name' →
      Renamed (.named location name annotations) (.named location name' annotations)
  | list {element element' : TypeReference} (location : Location) (annotations : Annotations) :
      Renamed element element' →
      Renamed (.list location element annotations) (.list location element' annotations)
  | set {element element' : TypeReference} (location : Location) (annotations : Annotations) :
      Renamed element element' →
      Renamed (.set location element annotations) (.set location element' annotations)
  | map {key key' value value' : TypeReference} (location : Location) (annotations : Annotations) :
      Renamed key key' → Renamed value value' →
      Renamed (.map location key value annotations) (.map location key' value' annotations)

namespace Renamed

theorem refl (reference : TypeReference) : reference.Renamed fits reference := by
  induction reference with
  | named location name annotations => exact .kept location name annotations
  | list location element annotations induction => exact .list location annotations induction
  | set location element annotations induction => exact .set location annotations induction
  | map location key value annotations induction induction' =>
      exact .map location annotations induction induction'

variable {fits} {reference reference' : TypeReference}

theorem imp {fits' : String → Prop} (weaken : ∀ name, fits name → fits' name)
    (renamed : reference.Renamed fits reference') : reference.Renamed fits' reference' := by
  induction renamed with
  | kept location name annotations => exact .kept location name annotations
  | replaced location annotations different holds =>
      exact .replaced location annotations different (weaken _ holds)
  | list location annotations _ induction => exact .list location annotations induction
  | set location annotations _ induction => exact .set location annotations induction
  | map location annotations _ _ induction induction' =>
      exact .map location annotations induction induction'

theorem length_names (renamed : reference.Renamed fits reference') :
    reference.names.length = reference'.names.length := by
  induction renamed with
  | kept => rfl
  | replaced => rfl
  | list _ _ _ induction => exact induction
  | set _ _ _ induction => exact induction
  | map _ _ _ _ induction induction' =>
      rw [names, names, List.length_append, List.length_append, induction, induction']

theorem location_eq (renamed : reference.Renamed fits reference') :
    reference'.location = reference.location := by
  cases renamed <;> rfl

end Renamed
end TypeReference

/-- Two uses of types stand in the same position and are the same but for names. -/
structure TypeUse.Renamed (fits : String → Prop) (use use' : TypeUse × TypeReference) : Prop where
  position : use'.1 = use.1
  reference : use.2.Renamed fits use'.2

/-- The names in some uses of types, in order. -/
def useNames (uses : List (TypeUse × TypeReference)) : List (Location × String) :=
  uses.flatMap (·.2.names)

theorem useNames_cons (use : TypeUse × TypeReference) (uses : List (TypeUse × TypeReference)) :
    useNames (use :: uses) = use.2.names ++ useNames uses :=
  rfl

section

variable {fits : String → Prop}

/-! ## Declarations -/

theorem renamed_fieldUses {decls decls' : List FieldDecl}
    (alike : List.Forall₂ (FieldDecl.Like (TypeReference.Renamed fits)) decls decls')
    (use : TypeUse) :
    List.Forall₂ (TypeUse.Renamed fits) (fieldUses use decls) (fieldUses use decls') := by
  refine List.forall₂_map_left_iff.mpr (List.forall₂_map_right_iff.mpr (alike.imp ?_))
  exact fun decl decl' like => ⟨rfl, like.type⟩

namespace TypedefDecl.Like

theorem uses {decl decl' : TypedefDecl} (like : decl.Like (TypeReference.Renamed fits) decl') :
    List.Forall₂ (TypeUse.Renamed fits) decl.uses decl'.uses :=
  .cons ⟨rfl, like.target⟩ .nil

end TypedefDecl.Like

namespace StructDecl.Like

theorem uses {decl decl' : StructDecl} (like : decl.Like (TypeReference.Renamed fits) decl') :
    List.Forall₂ (TypeUse.Renamed fits) decl.uses decl'.uses :=
  renamed_fieldUses like.fields .field

end StructDecl.Like

namespace FunctionDecl.Like

theorem uses {decl decl' : FunctionDecl} (like : decl.Like (TypeReference.Renamed fits) decl') :
    List.Forall₂ (TypeUse.Renamed fits) decl.uses decl'.uses :=
  .cons ⟨rfl, like.returnType⟩ (List.rel_append (renamed_fieldUses like.parameters .parameter)
    (renamed_fieldUses like.exceptions .exception))

end FunctionDecl.Like

namespace ServiceDecl.Like

theorem uses {decl decl' : ServiceDecl} (like : decl.Like (TypeReference.Renamed fits) decl') :
    List.Forall₂ (TypeUse.Renamed fits) decl.uses decl'.uses := by
  refine List.rel_append ?_ (List.rel_flatMap like.functions fun _ _ both => both.uses)
  have base := like.base?
  generalize decl.base? = base?, decl'.base? = base?' at base
  cases base with
  | none => exact .nil
  | some renamed => exact .cons ⟨rfl, renamed⟩ .nil

end ServiceDecl.Like

namespace ConstantDecl.Like

theorem uses {decl decl' : ConstantDecl} (like : decl.Like (TypeReference.Renamed fits) decl') :
    List.Forall₂ (TypeUse.Renamed fits) decl.uses decl'.uses :=
  .cons ⟨rfl, like.type⟩ .nil

end ConstantDecl.Like

end

/-! ## Files -/

namespace FileTree

/-- A file is another one in which some names of types became others that fit. -/
structure Renamed (fits : String → Prop) (tree tree' : FileTree) : Prop where
  location : tree'.location = tree.location
  namespaces : tree'.namespaces = tree.namespaces
  includes : tree'.includes = tree.includes
  types : tree.TypesLike (TypeReference.Renamed fits) tree'
  constants : List.Forall₂ (ConstantDecl.Like (TypeReference.Renamed fits))
    tree.constants tree'.constants

namespace Renamed

theorem refl (fits : String → Prop) (tree : FileTree) : tree.Renamed fits tree where
  location := rfl
  namespaces := rfl
  includes := rfl
  types := tree.typesLike_refl (TypeReference.Renamed.refl fits)
  constants := List.forall₂_same.mpr fun constant _ =>
    constant.like_refl (TypeReference.Renamed.refl fits)

variable {fits : String → Prop} {tree tree' : FileTree}

theorem imp {fits' : String → Prop} (weaken : ∀ name, fits name → fits' name)
    (renamed : tree.Renamed fits tree') : tree.Renamed fits' tree' where
  location := renamed.location
  namespaces := renamed.namespaces
  includes := renamed.includes
  types := renamed.types.imp fun _ _ inner => inner.imp weaken
  constants := List.Forall₂.imp (fun _ _ like => like.imp fun _ _ inner => inner.imp weaken)
    renamed.constants

/-- The uses of types in a file correspond to those in the other, one by one. -/
theorem uses (renamed : tree.Renamed fits tree') :
    List.Forall₂ (TypeUse.Renamed fits) tree.uses tree'.uses := by
  refine List.rel_append (List.rel_append (List.rel_append ?_ ?_) ?_) ?_
  · exact List.rel_flatMap renamed.types.typedefs fun _ _ like => like.uses
  · exact List.rel_flatMap renamed.types.structs fun _ _ like => like.uses
  · exact List.rel_flatMap renamed.types.services fun _ _ like => like.uses
  · exact List.rel_flatMap renamed.constants fun _ _ like => like.uses

end Renamed

/-- The names in a file that another one has others for: those others, with their positions. -/
def replaced (tree tree' : FileTree) : List (Location × String) :=
  replacedNames (useNames tree.uses) (useNames tree'.uses)

/-- The names of the types that a file declares. -/
def typeNames (tree : FileTree) : List String :=
  tree.typedefs.map (·.header.name) ++ tree.enums.map (·.header.name) ++
    tree.structs.map (·.header.name) ++ tree.services.map (·.header.name)

end FileTree

/-! ## Changing names everywhere -/

section

variable (change : String → String)

/-- The reference with each name changed. -/
def TypeReference.mapNames : TypeReference → TypeReference
  | named location name annotations => named location (change name) annotations
  | list location element annotations => list location element.mapNames annotations
  | set location element annotations => set location element.mapNames annotations
  | map location key value annotations => map location key.mapNames value.mapNames annotations

/-- The field with each name in its type changed. -/
def FieldDecl.mapNames (decl : FieldDecl) : FieldDecl :=
  { decl with type := decl.type.mapNames change }

/-- The function with each name in its types changed. -/
def FunctionDecl.mapNames (decl : FunctionDecl) : FunctionDecl :=
  { decl with
    returnType := decl.returnType.mapNames change
    parameters := decl.parameters.map (·.mapNames change)
    exceptions := decl.exceptions.map (·.mapNames change) }

/-- The service with each name in its types changed. -/
def ServiceDecl.mapNames (decl : ServiceDecl) : ServiceDecl :=
  { decl with
    base? := decl.base?.map (·.mapNames change)
    functions := decl.functions.map (·.mapNames change) }

/-- The file with each name of a type changed, where it is referred to. -/
def FileTree.mapNames (tree : FileTree) : FileTree :=
  { tree with
    typedefs := tree.typedefs.map fun decl => { decl with target := decl.target.mapNames change }
    structs := tree.structs.map fun decl =>
      { decl with fields := decl.fields.map (·.mapNames change) }
    services := tree.services.map (·.mapNames change)
    constants := tree.constants.map fun decl => { decl with type := decl.type.mapNames change } }

variable {change} {fits : String → Prop}

theorem forall₂_map_self {α : Type} {related : α → α → Prop} {f : α → α}
    (each : ∀ a, related a (f a)) (list : List α) : List.Forall₂ related list (list.map f) :=
  List.forall₂_map_right_iff.mpr (List.forall₂_same.mpr fun a _ => each a)

variable (fit : ∀ name, name ≠ change name → fits (change name))

include fit

theorem TypeReference.renamed_mapNames (reference : TypeReference) :
    reference.Renamed fits (reference.mapNames change) := by
  induction reference with
  | named location name annotations =>
      rw [mapNames]
      by_cases same : name = change name
      · rw [← same]
        exact .kept location name annotations
      · exact .replaced location annotations same (fit name same)
  | list location element annotations induction => exact .list location annotations induction
  | set location element annotations induction => exact .set location annotations induction
  | map location key value annotations induction induction' =>
      exact .map location annotations induction induction'

theorem FieldDecl.like_mapNames (decl : FieldDecl) :
    decl.Like (TypeReference.Renamed fits) (decl.mapNames change) :=
  ⟨rfl, rfl, rfl, decl.type.renamed_mapNames fit, rfl⟩

theorem FunctionDecl.like_mapNames (decl : FunctionDecl) :
    decl.Like (TypeReference.Renamed fits) (decl.mapNames change) where
  header := rfl
  oneWay := rfl
  returnType := decl.returnType.renamed_mapNames fit
  parameters := forall₂_map_self (fun field => field.like_mapNames fit) decl.parameters
  exceptions := forall₂_map_self (fun field => field.like_mapNames fit) decl.exceptions

theorem ServiceDecl.like_mapNames (decl : ServiceDecl) :
    decl.Like (TypeReference.Renamed fits) (decl.mapNames change) where
  header := rfl
  base? := by
    rw [mapNames]
    cases decl.base? with
    | none => exact .none
    | some base => exact .some (base.renamed_mapNames fit)
  functions := forall₂_map_self (fun function => function.like_mapNames fit) decl.functions

/-- Where all names that are changed become ones that fit, the file is one with names replaced. -/
theorem FileTree.renamed_mapNames (tree : FileTree) : tree.Renamed fits (tree.mapNames change) where
  location := rfl
  namespaces := rfl
  includes := rfl
  types :=
    { typedefs := forall₂_map_self
        (fun decl => ⟨rfl, decl.target.renamed_mapNames fit⟩) tree.typedefs
      enums := rfl
      structs := forall₂_map_self (fun decl => ⟨rfl, rfl,
        forall₂_map_self (fun field => field.like_mapNames fit) decl.fields⟩) tree.structs
      services := forall₂_map_self (fun decl => decl.like_mapNames fit) tree.services }
  constants := forall₂_map_self
    (fun decl => ⟨rfl, decl.type.renamed_mapNames fit, rfl⟩) tree.constants

end

end IdlSchema
