import IdlSchema.Proofs.Link.References
import IdlSchema.Proofs.Types.Renumbering

/-!
# References in another numbering

A name stands for a declared type that is found by its file and its name alone.  In files with the
same includes and the same declared types, whatever their places, references therefore stand for
types that are alike, and the same is reported of them.
-/

namespace IdlSchema

open TypeGraph

/-! ## What names stand for -/

/-- An expression is the same as another but for the declared types in it, which are related. -/
inductive TypeExpression.Alike {ι : Type} (users : ι → ι → Prop) :
    TypeExpression ι → TypeExpression ι → Prop where
  | builtin (builtin : Builtin) : Alike users (.builtin builtin) (.builtin builtin)
  | list {element element' : TypeExpression ι} : Alike users element element' →
      Alike users (.list element) (.list element')
  | set {element element' : TypeExpression ι} : Alike users element element' →
      Alike users (.set element) (.set element')
  | map {key key' value value' : TypeExpression ι} : Alike users key key' →
      Alike users value value' → Alike users (.map key value) (.map key' value')
  | user {user user' : ι} : users user user' → Alike users (.user user) (.user user')
  | invalid : Alike users .invalid .invalid

/-- Expressions that are alike read the same. -/
theorem TypeExpression.Alike.renamed_eq {graph graph' : TypeGraph} (renumbers : graph.Renumbers graph')
    {expression expression' : TypeExpression TypeId}
    (alike : expression.Alike (graph.Alike graph') expression') (declares : graph.Declares expression) :
    expression'.renamed graph'.key = expression.renamed graph.key := by
  induction alike with
  | builtin _ => rfl
  | list _ induction => rw [renamed, renamed, induction declares]
  | set _ induction => rw [renamed, renamed, induction declares]
  | map _ _ induction induction' =>
      rw [renamed, renamed, induction fun user member => declares user (List.mem_append_left _ member),
        induction' fun user member => declares user (List.mem_append_right _ member)]
  | @user user user' both =>
      obtain ⟨index, found⟩ := declares user (List.mem_singleton_self user)
      obtain ⟨shape', found', shapes⟩ := renumbers.shape?_alike both found
      have same := both.reading
      cases shapes
      rwa [renumbers.wellFormed.reading_eq found, renumbers.wellFormed'.reading_eq found'] at same
  | invalid => rfl

/-- A name fails for the same reason as another. -/
inductive NameFailure.Alike (types : TypeId → TypeId → Prop) : NameFailure → NameFailure → Prop where
  | unknown : Alike types .unknown .unknown
  | unknownQualifier (qualifier : String) :
      Alike types (.unknownQualifier qualifier) (.unknownQualifier qualifier)
  | sharedQualifier (qualifier : String) (files : List FileId) :
      Alike types (.sharedQualifier qualifier files) (.sharedQualifier qualifier files)
  | declaredTwice {ids ids' : List TypeId} : List.Forall₂ types ids ids' →
      Alike types (.declaredTwice ids) (.declaredTwice ids')

/-- Two names stand for related things, or they fail for the same reason. -/
inductive ResolvedAlike {α : Type} (types : TypeId → TypeId → Prop) (related : α → α → Prop) :
    Except NameFailure α → Except NameFailure α → Prop where
  | ok {a a' : α} : related a a' → ResolvedAlike types related (.ok a) (.ok a')
  | error {cause cause' : NameFailure} : cause.Alike types cause' →
      ResolvedAlike types related (.error cause) (.error cause')

namespace TypeGraph

variable {graph graph' : TypeGraph} {a a' : TypeId}

theorem UsersAlike.name_eq {user user' : UserType} (alike : graph.UsersAlike graph' user user') :
    user'.name = user.name :=
  congrArg (fun user => user.name) alike.written

theorem UsersAlike.location_eq {user user' : UserType}
    (alike : graph.UsersAlike graph' user user') : user'.location = user.location :=
  congrArg (fun user => user.location) alike.written

namespace Renumbers

/-- Names are looked up by file and name alone. -/
theorem lookup_rel (renumbers : graph.Renumbers graph') (file : FileId) (name : String) :
    Option.Rel (graph.Alike graph') (graph.lookup file name) (graph'.lookup file name) := by
  have users := renumbers.users.imp_of_mem fun user listed user' listed' both =>
    And.intro (UserType.key_eq_of_written both.written)
      (renumbers.alike_of_mem listed listed' (UserType.key_eq_of_written both.written))
  have found := @Corresponds.find?_rel _ _ _ _ _ _ UserType.key (file, name)
    (fun user => user.name.file == file && user.name.name == name)
    (fun user => user.name.file == file && user.name.name == name) users renumbers.nodup'
    (fun user same => by
      rw [Bool.and_eq_true, beq_iff_eq, beq_iff_eq] at same
      exact Prod.ext same.1 same.2)
    fun user user' both => by
      have same_file : user'.name.file = user.name.file := congrArg Prod.fst both.1
      have same_name : user'.name.name = user.name.name := congrArg Prod.snd both.1
      rw [same_file, same_name]
  rw [lookup, lookup]
  generalize graph.users.find? _ = user?, graph'.users.find? _ = user?' at found ⊢
  cases found with
  | some both => exact .some both.2
  | none => exact .none

/-- A declared type has the same text in any numbering. -/
theorem typeName_eq (renumbers : graph.Renumbers graph') (alike : graph.Alike graph' a a')
    {kind : UserTypeKind} (declared : graph.kind? a = some kind) :
    graph'.typeName a' = graph.typeName a := by
  obtain ⟨user, found, _⟩ := Option.map_eq_some_iff.mp declared
  have both := renumbers.user?_rel alike
  rw [found] at both
  generalize found' : graph'.user? a' = user?' at both
  cases both with
  | some users =>
      obtain ⟨index, at_a, _⟩ := user?_eq_some_iff.mp found
      obtain ⟨index', at_a', _⟩ := user?_eq_some_iff.mp found'
      rw [typeName, typeName, expression_user at_a, expression_user at_a', TypeExpression.text,
        TypeExpression.text, userName, userName, found, found', Option.map_some, Option.map_some,
        users.name_eq]

end Renumbers
end TypeGraph

namespace Scope

/-- A scope has the files and the declared types of another, in any numbering. -/
structure Renumbers (scope scope' : Scope) : Prop where
  graph : scope.graph.Renumbers scope'.graph
  includes : ∀ file, scope'.files.includes file = scope.files.includes file
  qualifier : ∀ file, scope'.files.qualifier file = scope.files.qualifier file
  path : ∀ file, scope'.files.path file = scope.files.path file
  warnDeprecated : scope'.warnDeprecated = scope.warnDeprecated

/-- Types of two scopes are alike. -/
abbrev TypesAlike (scope scope' : Scope) : TypeId → TypeId → Prop :=
  scope.graph.Alike scope'.graph

namespace Renumbers

variable {scope scope' : Scope} (renumbers : scope.Renumbers scope') (file : FileId)

include renumbers

theorem resolveQualified_alike (qualifier name : String) :
    ResolvedAlike (scope.TypesAlike scope') (scope.TypesAlike scope')
      (scope.resolveQualified file qualifier name) (scope'.resolveQualified file qualifier name) := by
  have same : scope'.includesQualified file qualifier = scope.includesQualified file qualifier := by
    simp only [includesQualified, renumbers.includes, renumbers.qualifier]
  rw [resolveQualified, resolveQualified, same]
  split
  · exact .error (.unknownQualifier qualifier)
  · rename_i included _
    have found := renumbers.graph.lookup_rel included name
    generalize scope.graph.lookup included name = id?, scope'.graph.lookup included name = id?' at found ⊢
    cases found with
    | some alike => exact .ok alike
    | none => exact .error .unknown
  · exact .error (.sharedQualifier qualifier _)

theorem resolveUnqualified_alike (name : String) :
    ResolvedAlike (scope.TypesAlike scope') (scope.TypesAlike scope')
      (scope.resolveUnqualified file name) (scope'.resolveUnqualified file name) := by
  have own := renumbers.graph.lookup_rel file name
  rw [resolveUnqualified, resolveUnqualified, renumbers.includes]
  generalize scope.graph.lookup file name = id?, scope'.graph.lookup file name = id?' at own ⊢
  cases own with
  | some alike => exact .ok alike
  | none =>
      have included : List.Forall₂ (scope.TypesAlike scope')
          ((scope.files.includes file).filterMap (scope.graph.lookup · name))
          ((scope.files.includes file).filterMap (scope'.graph.lookup · name)) := by
        refine List.rel_filterMap (R := Eq) ?_ ?_
        · rintro included _ rfl
          exact renumbers.graph.lookup_rel included name
        · exact List.forall₂_refl _
      dsimp only
      generalize (scope.files.includes file).filterMap (scope.graph.lookup · name) = ids,
        (scope.files.includes file).filterMap (scope'.graph.lookup · name) = ids' at included ⊢
      cases included with
      | nil => exact .error .unknown
      | cons first rest =>
          cases rest with
          | nil => exact .ok first
          | cons second rest => exact .error (.declaredTwice (.cons first (.cons second rest)))

theorem resolveName_alike (name : String) :
    ResolvedAlike (scope.TypesAlike scope') (TypeExpression.Alike (scope.TypesAlike scope'))
      (scope.resolveName file name) (scope'.resolveName file name) := by
  rw [resolveName, resolveName]
  split
  · exact .ok (.builtin _)
  · have resolved : ResolvedAlike (scope.TypesAlike scope') (scope.TypesAlike scope')
        (scope.resolveDeclared file name) (scope'.resolveDeclared file name) := by
      rw [resolveDeclared, resolveDeclared]
      split
      · exact renumbers.resolveQualified_alike file _ _
      · exact renumbers.resolveUnqualified_alike file name
    generalize scope.resolveDeclared file name = result, scope'.resolveDeclared file name = result'
      at resolved ⊢
    cases resolved with
    | ok alike => exact .ok (.user alike)
    | error alike => exact .error alike

/-- A reference stands for the same type in any numbering. -/
theorem denote_alike (reference : TypeReference) :
    (scope.denote file reference).Alike (scope.TypesAlike scope') (scope'.denote file reference) := by
  induction reference with
  | named _ name _ =>
      have resolved := renumbers.resolveName_alike file name
      rw [denote, denote]
      generalize scope.resolveName file name = result, scope'.resolveName file name = result'
        at resolved ⊢
      cases resolved with
      | ok alike => exact alike
      | error _ => exact .invalid
  | list _ _ _ induction => exact .list induction
  | set _ _ _ induction => exact .set induction
  | map _ _ _ _ induction induction' => exact .map induction induction'

/-! ## What is reported of references -/

theorem deprecation_eq {id id' : TypeId} (alike : scope.TypesAlike scope' id id')
    (location : Location) : scope'.deprecation location id' = scope.deprecation location id := by
  have both := renumbers.graph.user?_rel alike
  rw [deprecation, deprecation, renumbers.warnDeprecated]
  generalize scope.graph.user? id = user?, scope'.graph.user? id' = user?' at both ⊢
  cases both with
  | none => rfl
  | @some user user' users =>
      have deprecated : user'.deprecated = user.deprecated :=
        congrArg (fun user => user.deprecated) users.written
      dsimp only
      rw [users.name_eq, deprecated]

theorem failure_eq {cause cause' : NameFailure} (alike : cause.Alike (scope.TypesAlike scope') cause')
    (name : String) (location : Location) :
    scope'.failure name location cause' = scope.failure name location cause := by
  cases alike with
  | unknown => rfl
  | unknownQualifier qualifier => rfl
  | sharedQualifier qualifier files => simp only [failure, renumbers.path]
  | @declaredTwice ids ids' both =>
      have users : List.Forall₂ (scope.graph.UsersAlike scope'.graph)
          (ids.filterMap scope.graph.user?) (ids'.filterMap scope'.graph.user?) :=
        List.rel_filterMap (fun _ _ alike => renumbers.graph.user?_rel alike) both
      rw [failure, failure]
      refine Eq.symm (List.rel_foldl (P := Eq) ?_ rfl users)
      rintro diagnostic _ rfl user user' both
      dsimp only
      rw [both.name_eq, both.location_eq]

theorem valueProblems_eq {expression expression' : TypeExpression TypeId}
    (alike : expression.Alike (scope.TypesAlike scope') expression') (position : String)
    (location : Location) : scope'.valueProblems position location expression' =
      scope.valueProblems position location expression := by
  cases alike with
  | user users =>
      rw [valueProblems, valueProblems, renumbers.graph.kind?_eq users]
      split
      · rename_i service
        rw [renumbers.graph.typeName_eq users service]
      · rfl
  | builtin builtin => cases builtin <;> rfl
  | _ => rfl

theorem referenceProblems_eq (reference : TypeReference) :
    scope'.referenceProblems file reference = scope.referenceProblems file reference := by
  have element (reference : TypeReference) :
      scope'.elementProblems file reference = scope.elementProblems file reference :=
    renumbers.valueProblems_eq (renumbers.denote_alike file reference) _ _
  induction reference with
  | named location name _ =>
      have resolved := renumbers.resolveName_alike file name
      rw [referenceProblems, referenceProblems, nameProblems, nameProblems]
      generalize scope.resolveName file name = result, scope'.resolveName file name = result'
        at resolved ⊢
      cases resolved with
      | error alike => exact congrArg (fun problem => [problem]) (renumbers.failure_eq alike name location)
      | ok alike =>
          cases alike with
          | user users => exact renumbers.deprecation_eq users location
          | _ => rfl
  | list _ inner _ induction => rw [referenceProblems, referenceProblems, induction, element]
  | set _ inner _ induction => rw [referenceProblems, referenceProblems, induction, element]
  | map _ key value _ induction induction' =>
      rw [referenceProblems, referenceProblems, induction, induction', element, element]

/-- The same is reported of a type in its position, in any numbering. -/
theorem useProblems_eq (use : TypeUse × TypeReference) :
    scope'.useProblems file use = scope.useProblems file use := by
  rw [useProblems, useProblems, renumbers.referenceProblems_eq]
  split
  · rw [renumbers.valueProblems_eq (renumbers.denote_alike file use.2)]
  · rfl

end Renumbers
end Scope
end IdlSchema
