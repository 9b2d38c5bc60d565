import IdlSchema.Link.Scope
import IdlSchema.Proofs.Diagnostics
import IdlSchema.Proofs.Types.Growth

/-!
# Type references without problems

What a reference stands for is read off apart from its problems.  The two agree: a reference that
is not reported as an error stands for a type without the placeholder, and every collection in it
is one of types that have values.
-/

namespace IdlSchema
namespace TypeExpression

variable {ι : Type}

/-- The parameters of the collections in an expression, at any depth. -/
def parts : TypeExpression ι → List (TypeExpression ι)
  | builtin _ => []
  | list element => element :: element.parts
  | set element => element :: element.parts
  | map key value => (key :: key.parts) ++ (value :: value.parts)
  | user _ => []
  | invalid => []

end TypeExpression

namespace TypeGraph

theorem mem_users_of_lookup {graph : TypeGraph} {file : FileId} {name : String} {id : TypeId}
    (found : graph.lookup file name = some id) :
    ∃ user ∈ graph.users, user.id = id ∧ user.name.file = file ∧ user.name.name = name := by
  obtain ⟨user, found_user, same⟩ := Option.map_eq_some_iff.mp found
  have key := List.find?_some found_user
  rw [Bool.and_eq_true, beq_iff_eq, beq_iff_eq] at key
  exact ⟨user, List.mem_of_find?_eq_some found_user, same, key⟩

end TypeGraph

namespace Scope

open Diagnostics

variable {scope : Scope} {file : FileId}

/-- What a name stands for is declared in the file or in a file that it includes. -/
theorem exists_lookup_of_resolveDeclared {name : String} {id : TypeId}
    (resolved : scope.resolveDeclared file name = .ok id) :
    ∃ source rest, scope.graph.lookup source rest = some id := by
  rw [resolveDeclared] at resolved
  split at resolved
  · rw [resolveQualified] at resolved
    split at resolved
    · cases resolved
    · split at resolved
      · rename_i found
        cases resolved
        exact ⟨_, _, found⟩
      · cases resolved
    · cases resolved
  · rw [resolveUnqualified] at resolved
    split at resolved
    · rename_i found
      cases resolved
      exact ⟨_, _, found⟩
    · split at resolved
      · cases resolved
      · rename_i only
        cases resolved
        obtain ⟨included, _, found⟩ : ∃ included ∈ scope.files.includes file,
            scope.graph.lookup included name = some id := by
          rw [← List.mem_filterMap, only]
          exact List.mem_singleton_self id
        exact ⟨_, _, found⟩
      · cases resolved

theorem declares_resolveName (wellFormed : scope.graph.WellFormed) {name : String}
    {expression : TypeExpression TypeId} (resolved : scope.resolveName file name = .ok expression) :
    scope.graph.Declares expression := by
  rw [resolveName] at resolved
  split at resolved
  · cases resolved
    simp [TypeGraph.Declares, TypeExpression.users]
  · cases found : scope.resolveDeclared file name with
    | error cause => simp [found, Except.map] at resolved
    | ok id =>
        rw [found] at resolved
        cases resolved
        obtain ⟨source, rest, at_source⟩ := exists_lookup_of_resolveDeclared found
        obtain ⟨user, member, rfl, _⟩ := TypeGraph.mem_users_of_lookup at_source
        obtain ⟨index, at_index⟩ := List.getElem?_of_mem member
        intro other other_mem
        rw [List.mem_singleton.mp other_mem]
        exact ⟨index, wellFormed.user index user at_index⟩

/-- A reference stands for a type all of whose declared types are declared. -/
theorem declares_denote (wellFormed : scope.graph.WellFormed) (file : FileId)
    (reference : TypeReference) :
    scope.graph.Declares (scope.denote file reference) := by
  induction reference with
  | named location name annotations =>
      rw [denote]
      split
      · rename_i expression resolved
        exact declares_resolveName wellFormed resolved
      · simp [TypeGraph.Declares, TypeExpression.users]
  | list _ element _ induction => exact induction
  | set _ element _ induction => exact induction
  | map _ key value _ induction induction' =>
      intro user member
      exact (List.mem_append.mp member).elim (induction user) (induction' user)

/-! ## Problems -/

theorem isError_failure (name : String) (location : Location) (cause : NameFailure) :
    (scope.failure name location cause).isError = true := by
  cases cause with
  | unknown => rfl
  | unknownQualifier qualifier => rfl
  | sharedQualifier qualifier files =>
      have kept := (Diagnostic.foldl_relatedTo files
        (fun file => "`" ++ qualifier ++ "` may refer to `" ++ scope.files.path file ++ "`")
        (fun file => .start (scope.files.path file)) (.detailed .ambiguousType location name)).1
      exact Diagnostic.isError_congr kept
  | declaredTwice types =>
      have kept := (Diagnostic.foldl_relatedTo (types.filterMap scope.graph.user?)
        (fun user => "`" ++ user.name.text ++ "` is declared here") (·.location)
        (.detailed .ambiguousType location name)).1
      exact Diagnostic.isError_congr kept

/-- Values of a type can be stored, as far as its own form tells. -/
def Storable (scope : Scope) (expression : TypeExpression TypeId) : Prop :=
  expression ≠ .builtin .void ∧ ∀ id, expression = .user id → scope.graph.kind? id ≠ some .service

theorem clear_valueProblems {position : String} {location : Location}
    {expression : TypeExpression TypeId} :
    Clear (scope.valueProblems position location expression) ↔ scope.Storable expression := by
  rw [valueProblems.eq_def, Storable]
  split
  · simp only [ne_eq, not_true_eq_false, false_and, iff_false]
    exact not_clear_of_mem (List.mem_singleton_self _) rfl
  · rename_i id
    split
    · rename_i service
      simp only [ne_eq, reduceCtorEq, not_false_eq_true, true_and, TypeExpression.user.injEq,
        forall_eq', service, not_true_eq_false, iff_false]
      exact not_clear_of_mem (List.mem_singleton_self _) rfl
    · rename_i no_service
      simp [Clear, no_service]
  · rename_i no_void no_user
    simp only [Clear, List.not_mem_nil, false_implies, implies_true, true_iff]
    exact ⟨no_void, fun id same => absurd same (no_user id)⟩

/-- Nothing failed in an expression, and its collections are of types that have values. -/
def Intact (scope : Scope) (expression : TypeExpression TypeId) : Prop :=
  expression ≠ .invalid ∧ ∀ part ∈ expression.parts, part ≠ .invalid ∧ scope.Storable part

/-- A reference that is not reported as an error stands for a type in which nothing failed. -/
theorem intact_denote {reference : TypeReference}
    (clear : Clear (scope.referenceProblems file reference)) :
    scope.Intact (scope.denote file reference) := by
  have collected {element : TypeReference}
      (intact : scope.Intact (scope.denote file element))
      (storable : Clear (scope.elementProblems file element)) :
      ∀ part ∈ scope.denote file element :: (scope.denote file element).parts,
        part ≠ .invalid ∧ scope.Storable part :=
    List.forall_mem_cons.mpr ⟨⟨intact.1, clear_valueProblems.mp storable⟩, intact.2⟩
  induction reference with
  | named location name annotations =>
      rw [referenceProblems, nameProblems] at clear
      rw [denote]
      split at clear
      · rename_i id resolved
        rw [resolved]
        simp [Intact, TypeExpression.parts]
      · rename_i expression _ resolved
        rw [resolveName] at resolved ⊢
        split at resolved
        · cases resolved
          simp [Intact, TypeExpression.parts]
        · cases found : scope.resolveDeclared file name with
          | error cause => simp [found, Except.map] at resolved
          | ok id => simp [Intact, TypeExpression.parts, Except.map]
      · rename_i cause failed
        exact absurd clear
          (not_clear_of_mem (List.mem_singleton_self _) (isError_failure name location cause))
  | list location element annotations induction =>
      obtain ⟨inner, storable⟩ := clear_append.mp clear
      exact ⟨by simp [denote], collected (induction inner) storable⟩
  | set location element annotations induction =>
      obtain ⟨inner, storable⟩ := clear_append.mp clear
      exact ⟨by simp [denote], collected (induction inner) storable⟩
  | map location key value annotations induction induction' =>
      obtain ⟨at_key, at_value⟩ := clear_append.mp clear
      obtain ⟨key_inner, key_storable⟩ := clear_append.mp at_key
      obtain ⟨value_inner, value_storable⟩ := clear_append.mp at_value
      refine ⟨by simp [denote], fun part member => ?_⟩
      exact (List.mem_append.mp member).elim (collected (induction key_inner) key_storable part)
        (collected (induction' value_inner) value_storable part)

/-- The type in a position is intact, and values of it can be stored where values are. -/
theorem intact_of_use {use : TypeUse × TypeReference}
    (clear : Clear (scope.useProblems file use)) :
    scope.Intact (scope.denote file use.2) ∧
      (use.1.valuePosition?.isSome → scope.Storable (scope.denote file use.2)) := by
  rw [useProblems, clear_append] at clear
  refine ⟨intact_denote clear.1, fun stored => ?_⟩
  obtain ⟨position, at_use⟩ := Option.isSome_iff_exists.mp stored
  have storable := clear.2
  rw [at_use] at storable
  exact clear_valueProblems.mp storable

end Scope
end IdlSchema
