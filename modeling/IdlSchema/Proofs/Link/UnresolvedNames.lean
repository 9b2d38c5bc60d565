import IdlSchema.Proofs.Link.ParallelLinks
import IdlSchema.Proofs.Link.TypeNames
import IdlSchema.Proofs.Link.KeptDeclarations
import IdlSchema.Proofs.Tree.Renaming

/-!
# Names that stand for nothing

A replaced name that stands for nothing is reported where it stands, and the placeholder takes its
place.  Whatever is wrong with a type is wrong with what it is made of, so nothing else is reported of
a reference that had no problem before.

Whether a name stands for a type can be read off what files declare and include.  Files in which some
names are replaced by ones that stand for nothing are linked in parallel with the files as they were,
and what is wrong with their references is that these names are unresolved.
-/

namespace IdlSchema

open Diagnostics

/-- What is reported of names that stand for nothing. -/
def unresolvedNames (names : List (Location × String)) : List (DiagnosticKind × Location) :=
  names.map fun name => (.unresolvedType, name.1)

namespace Scope

/-- A name stands for nothing in a file, and is reported as an unresolved type. -/
def Misses (scope : Scope) (file : FileId) (name : String) : Prop :=
  ∃ cause, scope.resolveName file name = .error cause ∧
    ∀ location, (scope.failure name location cause).kind = .unresolvedType ∧
      (scope.failure name location cause).location = location

variable {scope scope' : Scope} {file : FileId}

theorem findings_nameProblems {name : String} (misses : scope.Misses file name)
    (location : Location) :
    findings (scope.nameProblems file name location) = [(.unresolvedType, location)] := by
  obtain ⟨cause, failed, reported⟩ := misses
  rw [nameProblems, failed]
  dsimp only
  rw [findings, errors, List.filter_cons_of_pos (isError_failure name location cause),
    List.filter_nil, List.map_singleton, (reported location).1, (reported location).2]

theorem clear_deprecation (location : Location) (id : TypeId) :
    Clear (scope.deprecation location id) := by
  rw [deprecation]
  split
  · split
    · exact List.forall_mem_singleton.mpr rfl
    · exact clear_nil
  · exact clear_nil

theorem clear_valueProblems_of_weakens (alike : scope.Alike scope')
    {expression expression' : TypeExpression TypeId} (weakens : expression.Weakens True expression')
    {position : String} {location : Location}
    (clear : Clear (scope.valueProblems position location expression)) :
    Clear (scope'.valueProblems position location expression') := by
  rw [clear_valueProblems] at clear ⊢
  rw [Storable, alike.graph]
  cases weakens with
  | builtin => exact clear
  | user => exact clear
  | _ =>
      constructor
      · intro same
        cases same
      · intro id same
        cases same

theorem clear_nameProblems {name : String} {expression : TypeExpression TypeId}
    (resolved : scope.resolveName file name = .ok expression) (location : Location) :
    Clear (scope.nameProblems file name location) := by
  rw [nameProblems, resolved]
  cases expression with
  | user id => exact clear_deprecation location id
  | _ => exact clear_nil

theorem exists_of_clear_nameProblems {name : String} {location : Location}
    (clear : Clear (scope.nameProblems file name location)) :
    ∃ expression, scope.resolveName file name = .ok expression := by
  cases resolved : scope.resolveName file name with
  | ok expression => exact ⟨expression, rfl⟩
  | error cause =>
      rw [nameProblems, resolved] at clear
      exact absurd clear
        (not_clear_of_mem (List.mem_singleton_self _) (isError_failure name location cause))

theorem clear_elementProblems (alike : scope.Alike scope') {fits : String → Prop}
    {element element' : TypeReference} (renamed : element.Renamed fits element')
    (weakens : Weakens True scope scope' file element element')
    (clear : Clear (scope.elementProblems file element)) :
    Clear (scope'.elementProblems file element') := by
  rw [elementProblems, renamed.location_eq]
  exact clear_valueProblems_of_weakens alike weakens clear

theorem weakens_of_renamed (alike : scope.Alike scope') {reference reference' : TypeReference}
    (renamed : reference.Renamed (scope'.Misses file) reference') :
    Weakens True scope scope' file reference reference' := by
  induction renamed with
  | kept =>
      rw [Weakens, alike.denote_eq]
      exact .refl True _
  | @replaced location name name' annotations different misses =>
      obtain ⟨cause, failed, _⟩ := misses
      have denoted : scope'.denote file (.named location name' annotations) = .invalid := by
        rw [denote, failed]
      rw [Weakens, denoted]
      exact .failed _ trivial
  | list _ _ _ weakens => exact .list weakens
  | set _ _ _ weakens => exact .set weakens
  | map _ _ _ _ weakens weakens' => exact .map weakens weakens'

/-- What is reported of a reference in which names are replaced by ones that stand for nothing. -/
theorem reports_reference (alike : scope.Alike scope') {reference reference' : TypeReference}
    (renamed : reference.Renamed (scope'.Misses file) reference')
    (clear : Clear (scope.referenceProblems file reference)) :
    findings (scope'.referenceProblems file reference') =
      unresolvedNames (replacedNames reference.names reference'.names) := by
  -- A collection adds to what is reported of its parts only what is wrong with storing them.
  have collected {element element' : TypeReference}
      (renamed : element.Renamed (scope'.Misses file) element')
      (storable : Clear (scope.elementProblems file element)) :
      findings (scope'.referenceProblems file element' ++ scope'.elementProblems file element') =
        findings (scope'.referenceProblems file element') := by
    have quiet := clear_elementProblems alike renamed (weakens_of_renamed alike renamed) storable
    rw [findings_append, findings_of_clear quiet, List.append_nil]
  induction renamed with
  | kept location name annotations =>
      rw [referenceProblems] at clear ⊢
      obtain ⟨expression, resolved⟩ := exists_of_clear_nameProblems clear
      have resolved' := (alike.resolveName_eq file name).trans resolved
      rw [findings_of_clear (clear_nameProblems resolved' location)]
      simp [replacedNames, TypeReference.names, unresolvedNames]
  | replaced location annotations different misses =>
      rw [referenceProblems, findings_nameProblems misses location]
      simp [replacedNames, TypeReference.names, unresolvedNames, different]
  | list location annotations renamed induction =>
      obtain ⟨inner, storable⟩ := clear_append.mp clear
      exact (collected renamed storable).trans (induction inner)
  | set location annotations renamed induction =>
      obtain ⟨inner, storable⟩ := clear_append.mp clear
      exact (collected renamed storable).trans (induction inner)
  | map location annotations renamed renamed' induction induction' =>
      obtain ⟨at_key, at_value⟩ := clear_append.mp clear
      obtain ⟨key_inner, key_storable⟩ := clear_append.mp at_key
      obtain ⟨value_inner, value_storable⟩ := clear_append.mp at_value
      rw [referenceProblems, findings_append, collected renamed key_storable,
        collected renamed' value_storable, induction key_inner, induction' value_inner]
      rw [TypeReference.names, TypeReference.names, replacedNames_append renamed.length_names]
      exact List.map_append.symm

theorem reports_use (alike : scope.Alike scope') {use use' : TypeUse × TypeReference}
    (renamed : TypeUse.Renamed (scope'.Misses file) use use')
    (clear : Clear (scope.useProblems file use)) :
    findings (scope'.useProblems file use') =
      unresolvedNames (replacedNames use.2.names use'.2.names) := by
  rw [useProblems, clear_append] at clear
  obtain ⟨inner, stored⟩ := clear
  have reported := reports_reference alike renamed.reference inner
  rw [useProblems, findings_append, reported, renamed.position, renamed.reference.location_eq]
  cases at_position : use.1.valuePosition? with
  | none => exact List.append_nil _
  | some position =>
      rw [at_position] at stored
      have weakens := weakens_of_renamed alike renamed.reference
      have quiet := clear_valueProblems_of_weakens alike weakens stored
      dsimp only
      rw [findings_of_clear quiet, List.append_nil]

/-- What is reported of uses in which names are replaced by ones that stand for nothing. -/
theorem reports_uses (alike : scope.Alike scope') {uses uses' : List (TypeUse × TypeReference)}
    (renamed : List.Forall₂ (TypeUse.Renamed (scope'.Misses file)) uses uses')
    (clear : Clear (uses.flatMap (scope.useProblems file))) :
    findings (uses'.flatMap (scope'.useProblems file)) =
      unresolvedNames (replacedNames (useNames uses) (useNames uses')) := by
  induction renamed with
  | nil => rfl
  | @cons use use' uses uses' first others induction =>
      rw [List.flatMap_cons, clear_append] at clear
      rw [useNames_cons, useNames_cons, replacedNames_append first.reference.length_names]
      rw [List.flatMap_cons, findings_append, reports_use alike first clear.1, induction clear.2]
      exact List.map_append.symm

end Scope
end IdlSchema

/-! # Files in which names stand for nothing -/

namespace IdlSchema

open Diagnostics

namespace FileTable

/--
A name stands for no type in a file: it is no keyword, and neither the file nor a file that it includes
declares it, or the one included file with its qualifier, if there is one, does not.
-/
def StandsForNothing (files : FileTable) (file : FileId) (name : String) : Prop :=
  Builtin.ofKeyword? name = none ∧
    match Text.splitFirst? name with
    | some (qualifier, rest) =>
        ((files.includes file).filter (files.qualifier · == qualifier)).length ≤ 1 ∧
          ∀ included ∈ files.includes file, files.qualifier included = qualifier →
            rest ∉ (files.tree included).typeNames
    | none =>
        name ∉ (files.tree file).typeNames ∧
          ∀ included ∈ files.includes file, name ∉ (files.tree included).typeNames

variable {files files' : FileTable} {order : List FileId} {warnDeprecated : Bool} {file : FileId}
  {name : String}

/-- A name that a file does not declare is not found in it. -/
theorem lookup_eq_none (order : List FileId) (absent : name ∉ (files.tree file).typeNames) :
    (files.declared order).2.graph.lookup file name = none := by
  have records := files.records_declared order
  refine TypeGraph.lookup_eq_none_iff.mpr fun found => absent ?_
  obtain ⟨user, listed, same⟩ := List.mem_map.mp found
  rw [(adds_declared files order).users] at listed
  simp only [FileTree.typeNames, List.mem_append, List.mem_map]
  rcases FileDeclarations.mem_users_iff.mp listed with ⟨accepted, member, rfl⟩ |
    ⟨accepted, member, rfl⟩ | ⟨accepted, member, rfl⟩ | ⟨accepted, member, rfl⟩ <;> cases same
  · exact .inl (.inl (.inl ⟨_, FileDeclarations.mem_of_accepted
      (records.imp fun _ _ recorded => recorded.typedefs) member, rfl⟩))
  · exact .inl (.inl (.inr ⟨_, FileDeclarations.mem_of_accepted
      (records.imp fun _ _ recorded => recorded.enums) member, rfl⟩))
  · exact .inl (.inr ⟨_, FileDeclarations.mem_of_accepted
      (records.imp fun _ _ recorded => recorded.structs) member, rfl⟩)
  · exact .inr ⟨_, FileDeclarations.mem_of_accepted
      (records.imp fun _ _ recorded => recorded.services) member, rfl⟩

/-- A name that stands for nothing fails as an unresolved one, also in a scope that is alike. -/
theorem StandsForNothing.misses (nothing : files.StandsForNothing file name)
    (alike : Scope.Alike (files.typeScope order warnDeprecated)
      (files'.typeScope order warnDeprecated)) :
    (files'.typeScope order warnDeprecated).Misses file name := by
  obtain ⟨no_keyword, absent⟩ := nothing
  rw [Scope.Misses, alike.resolveName_eq]
  simp only [Scope.resolveName, no_keyword, Scope.resolveDeclared]
  cases split : Text.splitFirst? name with
  | none =>
      rw [split] at absent
      obtain ⟨not_here, not_included⟩ := absent
      have none_included : (files.includes file).filterMap
          ((files.declared order).2.graph.lookup · name) = [] :=
        List.filterMap_eq_nil_iff.mpr fun included member =>
          lookup_eq_none order (not_included included member)
      simp only [Scope.resolveUnqualified, typeScope, lookup_eq_none order not_here, none_included]
      exact ⟨.unknown, rfl, fun location => ⟨rfl, rfl⟩⟩
  | some parts =>
      obtain ⟨qualifier, rest⟩ := parts
      rw [split] at absent
      obtain ⟨few, not_there⟩ := absent
      simp only [Scope.resolveQualified, Scope.includesQualified, typeScope]
      cases there : (files.includes file).filter (files.qualifier · == qualifier) with
      | nil => exact ⟨.unknownQualifier qualifier, rfl, fun location => ⟨rfl, rfl⟩⟩
      | cons included others =>
          rw [there, List.length_cons] at few
          obtain rfl := List.length_eq_zero_iff.mp (Nat.le_zero.mp (Nat.le_of_succ_le_succ few))
          obtain ⟨member, same⟩ := List.mem_filter.mp (there ▸ List.mem_cons_self)
          dsimp only
          rw [lookup_eq_none order (not_there included member (eq_of_beq same))]
          exact ⟨.unknown, rfl, fun location => ⟨rfl, rfl⟩⟩

/-- Files are others in which some names of types became ones that stand for nothing. -/
structure Renamed (files files' : FileTable) (order : List FileId) : Prop where
  includes : ∀ file, files'.includes file = files.includes file
  qualifier : ∀ file, files'.qualifier file = files.qualifier file
  tree : ∀ file ∈ order, (files.tree file).Renamed (files.StandsForNothing file) (files'.tree file)

namespace Renamed

variable (renamed : files.Renamed files' order)

include renamed

theorem alike (warnDeprecated : Bool) : Scope.Alike (files.typeScope order warnDeprecated)
    (files'.typeScope order warnDeprecated) := by
  have like (file : FileId) (member : file ∈ order) :
      (files.tree file).TypesLike (fun _ _ => True) (files'.tree file) :=
    (renamed.tree file member).types.imp fun _ _ _ => trivial
  have graph : (files'.declared order).2.graph = (files.declared order).2.graph :=
    (Names.declareFiles_parallel renamed.qualifier like rfl).2
  exact ⟨graph, renamed.includes, renamed.qualifier⟩

theorem misses (warnDeprecated : Bool) (member : file ∈ order) : (files.tree file).Renamed
    ((files'.typeScope order warnDeprecated).Misses file) (files'.tree file) :=
  (renamed.tree file member).imp fun _ nothing => nothing.misses (renamed.alike warnDeprecated)

/-- What becomes of constants depends on their headers alone, which stay. -/
theorem constants (warnDeprecated : Bool) :
    List.Forall₂ (fun declarations declarations' : FileDeclarations =>
        List.Forall₂ (Declared.Parallel fun file => ConstantDecl.Like (Scope.Weakens True
          (files.typeScope order warnDeprecated) (files'.typeScope order warnDeprecated) file))
          declarations.constants declarations'.constants)
      (files.declared order).1 (files'.declared order).1 := by
  refine Names.declareFiles_constants (fun file member => ?_) rfl
  refine List.Forall₂.imp (fun _ _ like => like.imp fun _ _ inner => ?_)
    (renamed.misses warnDeprecated member).constants
  exact Scope.weakens_of_renamed (renamed.alike warnDeprecated) inner

/-- The files are linked in parallel, with types that may have failed. -/
theorem parallel (warnDeprecated : Bool) : files.Parallel True files' order warnDeprecated := by
  have alike := renamed.alike warnDeprecated
  have accepted := forall₂_accepted
    (List.rel_flatMap (renamed.constants warnDeprecated) fun _ _ both => both)
  refine ⟨renamed.includes, renamed.qualifier, alike.graph, ?_, fun constant listed => ?_,
    fun constant' listed' => ?_⟩
  · refine (Names.declareFiles_parallel renamed.qualifier (fun file member => ?_) rfl).1
    exact (renamed.misses warnDeprecated member).types.imp fun _ _ inner =>
      Scope.weakens_of_renamed alike inner
  · obtain ⟨constant', listed', both⟩ := accepted.exists_of_mem_left listed
    exact ⟨constant', listed', both.file, both.decl⟩
  · obtain ⟨constant, listed, both⟩ := accepted.exists_of_mem_right listed'
    exact ⟨constant, listed, both.file, both.decl⟩

/-- Declarations are refused for the same reasons. -/
theorem problems_eq : (files'.declared order).1.map (·.problems) =
    (files.declared order).1.map (·.problems) :=
  ((renamed.parallel true).declarations.and (renamed.constants true)).map_eq
    fun _ _ both => both.1.problems_eq both.2

theorem clear_declared (clear : Clear ((files.declared order).1.flatMap (·.problems))) :
    Clear ((files'.declared order).1.flatMap (·.problems)) := by
  rwa [List.flatMap_def, renamed.problems_eq, ← List.flatMap_def]

theorem memberProblems_eq :
    Scope.memberProblems ((files'.declared order).1.flatMap (·.enums)) =
      Scope.memberProblems ((files.declared order).1.flatMap (·.enums)) := by
  have same := (renamed.parallel true).acceptedEnums.map_eq fun accepted accepted' both =>
    congrArg (fun decl : EnumDecl => (linkMembers 0 decl.members).2) both.decl
  rw [Scope.memberProblems, Scope.memberProblems, List.flatMap_def, List.flatMap_def]
  exact congrArg List.flatten same

/-- All that is wrong with references is that the names that came in are unresolved. -/
theorem findings_typeProblems (clearly : files.LinksClearly order warnDeprecated) :
    (findings ((files'.typeScope order warnDeprecated).typeProblems (files'.declared order).1)).Perm
      (unresolvedNames
        (order.flatMap fun file => (files.tree file).replaced (files'.tree file))) := by
  have sorted : ((files.typeScope order warnDeprecated).typeProblems
      (files.declared order).1).Perm _ :=
    Scope.typeProblems_perm (files.records_declared order)
  have sorted' : ((files'.typeScope order warnDeprecated).typeProblems
      (files'.declared order).1).Perm _ :=
    Scope.typeProblems_perm (files'.records_declared order)
  have clear := (clear_perm sorted).mp clearly.types
  rw [clear_append, clear_flatMap] at clear
  obtain ⟨members, references⟩ := clear
  have members' : Clear (Scope.memberProblems ((files'.declared order).1.flatMap (·.enums))) :=
    renamed.memberProblems_eq ▸ members
  refine (findings_perm sorted').trans (.of_eq ?_)
  rw [findings_append, findings_of_clear members', List.nil_append, findings_flatMap, unresolvedNames,
    List.map_flatMap]
  exact List.flatMap_congr fun file member => Scope.reports_uses (renamed.alike warnDeprecated)
    (renamed.misses warnDeprecated member).uses (references file member)

end Renamed
end FileTable
end IdlSchema
