import IdlSchema.Proofs.Link.DeprecatedUses
import IdlSchema.Proofs.Link.NameResolution

/-!
# Resolving type references

A reference means the type that is made of what its names stand for, with the placeholder where a name
stands for nothing.  Resolving it gives that type, adds nothing but collections to the graph, and
reports each name that stands for nothing and each position that holds void or a service, once and
from left to right.
-/

namespace IdlSchema

open Diagnostics

namespace TypeReference

/-- The parameters of the collections in a reference, each behind those inside it. -/
def parameters : TypeReference → List TypeReference
  | named _ _ _ => []
  | list _ element _ => element.parameters ++ [element]
  | set _ element _ => element.parameters ++ [element]
  | map _ key value _ => key.parameters ++ [key] ++ (value.parameters ++ [value])

end TypeReference

/-- Where a use of a type stores values: in its collections, and in its own position if that does. -/
def TypeUse.positions (use : TypeUse × TypeReference) : List (String × TypeReference) :=
  use.2.parameters.map ("collection element", ·) ++ use.1.valuePosition?.toList.map (·, use.2)

/-- A shape is that of a collection. -/
def TypeShape.IsCollection : TypeShape → Prop
  | list _ => True
  | set _ => True
  | map _ _ => True
  | _ => False

namespace Diagnostics

/-- The problems of names that stand for nothing. -/
def ofNames (diagnostics : Diagnostics) : Diagnostics :=
  diagnostics.filter fun problem => problem.kind ∈ [.unresolvedType, .ambiguousType]

@[simp]
theorem ofNames_append (a b : Diagnostics) : (a ++ b).ofNames = a.ofNames ++ b.ofNames :=
  List.filter_append ..

theorem Among.ofNames_eq_nil {kinds : List DiagnosticKind} {diagnostics : Diagnostics}
    (among : Among kinds diagnostics)
    (others : ∀ kind ∈ kinds, kind ∉ [.unresolvedType, .ambiguousType]) :
    diagnostics.ofNames = [] :=
  List.filter_eq_nil_iff.mpr fun problem member => by
    simpa using others problem.kind (among problem member)

end Diagnostics

/-! ## Adding collections -/

namespace TypeGraph

variable {graph : TypeGraph}

/-- A graph has the shapes of another and collections besides. -/
def AddsCollections (before after : TypeGraph) : Prop :=
  ∃ added, after.shapes = before.shapes ++ added ∧ ∀ shape ∈ added, shape.IsCollection

theorem AddsCollections.refl (graph : TypeGraph) : graph.AddsCollections graph :=
  ⟨[], (List.append_nil _).symm, fun _ member => absurd member List.not_mem_nil⟩

theorem AddsCollections.trans {a b c : TypeGraph} (first : a.AddsCollections b)
    (second : b.AddsCollections c) : a.AddsCollections c := by
  obtain ⟨added, same, collections⟩ := first
  obtain ⟨added', same', collections'⟩ := second
  refine ⟨added ++ added', by rw [same', same, List.append_assoc], fun shape member => ?_⟩
  exact (List.mem_append.mp member).elim (collections shape) (collections' shape)

theorem addsCollections_intern (graph : TypeGraph) {shape : TypeShape}
    (collection : shape.IsCollection) : graph.AddsCollections (intern shape graph).2 := by
  rcases intern_cases graph shape with ⟨id, same, _⟩ | ⟨_, same⟩
  · rw [same]
    exact .refl graph
  · rw [same]
    exact ⟨[shape], rfl, fun other member => List.mem_singleton.mp member ▸ collection⟩

theorem typeName_of_user? {id : TypeId} {user : UserType} (found : graph.user? id = some user) :
    graph.typeName id = user.name.text := by
  obtain ⟨index, at_id, _⟩ := user?_eq_some_iff.mp found
  rw [typeName, expression_user at_id, TypeExpression.text, userName, found]
  rfl

/-- Adding an expression goes on from a built graph to another one, by collections alone. -/
theorem Built.internExpression (built : graph.Built) {expression : TypeExpression TypeId}
    (declares : graph.Declares expression) :
    (internExpression expression graph).2.Built ∧
      graph.AddsCollections (TypeGraph.internExpression expression graph).2 := by
  induction expression generalizing graph with
  | builtin builtin => exact ⟨built, .refl graph⟩
  | list element induction =>
      obtain ⟨inner, collections⟩ := induction built declares
      have adds : graph.Adds element _ := adds_internExpression built.wellFormed declares
      refine ⟨inner.intern (.list _) ?_ (by simp), collections.trans (addsCollections_intern _ trivial)⟩
      simpa using adds.inside
  | set element induction =>
      obtain ⟨inner, collections⟩ := induction built declares
      have adds : graph.Adds element _ := adds_internExpression built.wellFormed declares
      refine ⟨inner.intern (.set _) ?_ (by simp), collections.trans (addsCollections_intern _ trivial)⟩
      simpa using adds.inside
  | map key value induction induction' =>
      have declares_key : graph.Declares key := fun user member =>
        declares user (List.mem_append_left _ member)
      have declares_value : graph.Declares value := fun user member =>
        declares user (List.mem_append_right _ member)
      obtain ⟨at_key, collections⟩ := induction built declares_key
      have adds := adds_internExpression built.wellFormed declares_key
      obtain ⟨at_value, collections'⟩ := induction' at_key (declares_value.extends adds.extension)
      have adds' := adds_internExpression at_key.wellFormed (declares_value.extends adds.extension)
      refine ⟨at_value.intern (.map _ _) ?_ (by simp),
        (collections.trans collections').trans (addsCollections_intern _ trivial)⟩
      simpa using ⟨adds.inside.trans_le adds'.extension.size_le, adds'.inside⟩
  | user user => exact ⟨built, .refl graph⟩
  | invalid => exact ⟨built, .refl graph⟩

end TypeGraph

namespace Scope

/-- The type that a reference in a file means. -/
inductive Means (scope : Scope) (file : FileId) : TypeReference → TypeExpression TypeId → Prop where
  | named (location : Location) (annotations : Annotations) {name : String}
      {expression : TypeExpression TypeId} : scope.StandsFor file name expression →
      Means scope file (.named location name annotations) expression
  | failed (location : Location) (annotations : Annotations) {name : String} :
      (∀ expression, ¬ scope.StandsFor file name expression) →
      Means scope file (.named location name annotations) .invalid
  | list (location : Location) (annotations : Annotations) {element : TypeReference}
      {expression : TypeExpression TypeId} : Means scope file element expression →
      Means scope file (.list location element annotations) (.list expression)
  | set (location : Location) (annotations : Annotations) {element : TypeReference}
      {expression : TypeExpression TypeId} : Means scope file element expression →
      Means scope file (.set location element annotations) (.set expression)
  | map (location : Location) (annotations : Annotations) {key value : TypeReference}
      {expression expression' : TypeExpression TypeId} : Means scope file key expression →
      Means scope file value expression' →
      Means scope file (.map location key value annotations) (.map expression expression')

/-- A name, where it stands, stands for nothing. -/
def Fails (scope : Scope) (file : FileId) (named : Location × String) : Prop :=
  ∀ expression, ¬ scope.StandsFor file named.2 expression

/-- A reference means void or a service. -/
def Valueless (scope : Scope) (file : FileId) (reference : TypeReference) : Prop :=
  scope.Means file reference (.builtin .void) ∨
    ∃ id, scope.Means file reference (.user id) ∧ scope.graph.kind? id = some .service

/-- A problem says of a name that it belongs to several files, or else that it stands for nothing. -/
structure BlamesName (scope : Scope) (file : FileId) (problem : Diagnostic)
    (named : Location × String) : Prop where
  location : problem.location = named.1
  message : problem.message = problem.kind.message (some named.2)
  kind : (problem.kind = .ambiguousType ∧ scope.Ambiguous file named.2) ∨
    (problem.kind = .unresolvedType ∧ ¬ scope.Ambiguous file named.2)

/-- A problem says that void or a service stands in a position. -/
structure BlamesPosition (scope : Scope) (file : FileId) (problem : Diagnostic)
    (position : String × TypeReference) : Prop where
  location : problem.location = position.2.location
  cause : (scope.Means file position.2 (.builtin .void) ∧
      problem.message = DiagnosticKind.message .invalidFieldType
        (some ("`void` cannot be used as a " ++ position.1 ++ " type"))) ∨
    ∃ id, scope.Means file position.2 (.user id) ∧ scope.graph.kind? id = some .service ∧
      problem.message = DiagnosticKind.message .invalidFieldType
        (some ("service `" ++ scope.graph.typeName id ++ "` cannot be used as a " ++ position.1 ++
          " type"))

open Classical in
/--
What resolving a use of a type in a file gives, and which problems it reports: the type that is meant,
in a graph with more collections, a problem for each name that stands for nothing and for each
position without values, and otherwise warnings only.
-/
structure Resolves (scope : Scope) (file : FileId) (use : TypeUse × TypeReference)
    (result : TypeId × TypeGraph) (problems : Diagnostics) : Prop where
  means : ∀ expression,
    scope.Means file use.2 expression ↔ result.2.expression result.1 = expression
  inside : result.1.index < result.2.size
  built : result.2.Built
  users : result.2.users = scope.graph.users
  collections : scope.graph.AddsCollections result.2
  names : List.Forall₂ (scope.BlamesName file) problems.ofNames
    (use.2.names.filter fun named => scope.Fails file named)
  positions : List.Forall₂ (scope.BlamesPosition file) (problems.ofKind .invalidFieldType)
    ((TypeUse.positions use).filter fun position => scope.Valueless file position.2)
  warnings : ∀ problem ∈ problems.ofKind .deprecatedUsage, scope.warnDeprecated = true ∧
    ∃ named ∈ use.2.names, problem.location = named.1 ∧ ∃ id user,
      scope.StandsFor file named.2 (.user id) ∧ scope.graph.user? id = some user ∧
        user.deprecated = true
  others : Among [.unresolvedType, .ambiguousType, .deprecatedUsage, .invalidFieldType] problems

variable {scope : Scope} {file : FileId}

/-! ## Problems of single names and positions -/

theorem failure_cases (name : String) (location : Location) (cause : NameFailure) :
    (scope.failure name location cause).location = location ∧
      (scope.failure name location cause).message =
        (scope.failure name location cause).kind.message (some name) ∧
      ((scope.failure name location cause).kind = .ambiguousType ∧ cause.Shared ∨
        (scope.failure name location cause).kind = .unresolvedType ∧ ¬ cause.Shared) := by
  cases cause with
  | unknown => exact ⟨rfl, rfl, .inr ⟨rfl, id⟩⟩
  | unknownQualifier qualifier => exact ⟨rfl, rfl, .inr ⟨rfl, id⟩⟩
  | sharedQualifier qualifier files =>
      obtain ⟨kind, at_location⟩ := Diagnostic.foldl_relatedTo files
        (fun file => "`" ++ qualifier ++ "` may refer to `" ++ scope.files.path file ++ "`")
        (fun file => .start (scope.files.path file)) (.detailed .ambiguousType location name)
      refine ⟨at_location, ?_, .inl ⟨kind, trivial⟩⟩
      rw [failure, kind]
      exact Diagnostic.message_foldl_relatedTo ..
  | declaredTwice types =>
      obtain ⟨kind, at_location⟩ := Diagnostic.foldl_relatedTo (types.filterMap scope.graph.user?)
        (fun user => "`" ++ user.name.text ++ "` is declared here") (·.location)
        (.detailed .ambiguousType location name)
      refine ⟨at_location, ?_, .inl ⟨kind, trivial⟩⟩
      rw [failure, kind]
      exact Diagnostic.message_foldl_relatedTo ..

theorem exists_of_mem_nameWarnings {problem : Diagnostic} {named : Location × String}
    (member : problem ∈ scope.nameWarnings file named) :
    ∃ id, scope.resolveName file named.2 = .ok (.user id) ∧
      problem ∈ scope.deprecation named.1 id := by
  obtain ⟨id, declared, warned⟩ := List.mem_flatMap.mp member
  rw [Option.mem_toList, declared?] at declared
  split at declared
  · rename_i other resolved
    obtain rfl := Option.some.inj declared
    exact ⟨_, resolved, warned⟩
  · cases declared

theorem exists_of_mem_deprecation {problem : Diagnostic} {location : Location} {id : TypeId}
    (member : problem ∈ scope.deprecation location id) :
    ∃ user, scope.graph.user? id = some user ∧
      (scope.warnDeprecated = true ∧ user.deprecated = true) ∧ problem.location = location := by
  rw [deprecation] at member
  split at member
  · rename_i user found
    split at member
    · rename_i wanted
      rw [List.mem_singleton.mp member]
      exact ⟨user, found, Bool.and_eq_true_iff.mp wanted, rfl⟩
    · cases member
  · cases member

section

variable (built : scope.graph.Built) (distinct : (scope.files.includes file).Nodup)

include built distinct

/-- What a reference means is what it is made into. -/
theorem means_iff {reference : TypeReference} {expression : TypeExpression TypeId} :
    scope.Means file reference expression ↔ scope.denote file reference = expression := by
  constructor
  · intro means
    induction means with
    | named location annotations stands =>
        rw [denote, (standsFor_iff built distinct).mp stands]
    | failed location annotations fails =>
        rw [denote]
        split
        · rename_i expression resolved
          exact absurd ((standsFor_iff built distinct).mpr resolved) (fails expression)
        · rfl
    | list location annotations _ induction => rw [denote, induction]
    | set location annotations _ induction => rw [denote, induction]
    | map location annotations _ _ induction induction' => rw [denote, induction, induction']
  · rintro rfl
    induction reference with
    | named location name annotations =>
        rw [denote]
        split
        · rename_i expression resolved
          exact .named location annotations ((standsFor_iff built distinct).mpr resolved)
        · rename_i cause failed
          refine .failed location annotations fun expression stands => ?_
          rw [(standsFor_iff built distinct).mp stands] at failed
          cases failed
    | list location element annotations induction => exact .list location annotations induction
    | set location element annotations induction => exact .set location annotations induction
    | map location key value annotations induction induction' =>
        exact .map location annotations induction induction'

open Classical in
theorem blames_nameProblems (name : String) (location : Location) :
    List.Forall₂ (scope.BlamesName file) (scope.nameProblems file name location).ofNames
      ([(location, name)].filter fun named => scope.Fails file named) := by
  rw [nameProblems]
  cases resolved : scope.resolveName file name with
  | error cause =>
      have fails : scope.Fails file (location, name) := fun expression stands => by
        rw [(standsFor_iff built distinct).mp stands] at resolved
        cases resolved
      have ambiguous : scope.Ambiguous file name ↔ cause.Shared := by
        rw [ambiguous_iff built distinct, resolved]
        simp
      obtain ⟨at_location, message, kind⟩ := scope.failure_cases name location cause
      have kept : Diagnostics.ofNames [scope.failure name location cause] =
          [scope.failure name location cause] := by
        refine List.filter_eq_self.mpr fun problem member => ?_
        rw [List.mem_singleton.mp member]
        rcases kind with ⟨kind, _⟩ | ⟨kind, _⟩ <;> simp [kind]
      rw [List.filter_cons_of_pos (by simpa using fails)]
      rw [← ambiguous] at kind
      exact kept ▸ .cons ⟨at_location, message, kind⟩ .nil
  | ok expression =>
      have stands := (standsFor_iff built distinct).mpr resolved
      have quiet : ¬ scope.Fails file (location, name) := fun fails => fails expression stands
      rw [List.filter_cons_of_neg (by simpa using quiet)]
      cases expression with
      | user id =>
          exact ((among_deprecation location id).ofNames_eq_nil (by decide)).symm ▸ .nil
      | _ => exact .nil

open Classical in
theorem blames_valueProblems (position : String) (reference : TypeReference) :
    List.Forall₂ (scope.BlamesPosition file)
      (scope.valueProblems position reference.location (scope.denote file reference))
      ([(position, reference)].filter fun position => scope.Valueless file position.2) := by
  have means {expression : TypeExpression TypeId} :=
    @means_iff scope file built distinct reference expression
  by_cases valueless : scope.Valueless file reference
  · rw [List.filter_cons_of_pos (by simpa using valueless)]
    rcases valueless with is_void | ⟨id, is_user, service⟩
    · rw [means.mp is_void]
      exact .cons ⟨rfl, .inl ⟨is_void, rfl⟩⟩ .nil
    · rw [means.mp is_user, valueProblems, if_pos service]
      exact .cons ⟨rfl, .inr ⟨id, is_user, service, rfl⟩⟩ .nil
  · rw [List.filter_cons_of_neg (by simpa using valueless), valueProblems.eq_def]
    split
    · rename_i is_void
      exact absurd (.inl (means.mpr is_void)) valueless
    · rename_i id is_user
      rw [if_neg fun service => valueless (.inr ⟨id, means.mpr is_user, service⟩)]
      exact .nil
    · exact .nil

/-! ## Problems of references -/

open Classical in
theorem blames_names (reference : TypeReference) :
    List.Forall₂ (scope.BlamesName file) (scope.referenceProblems file reference).ofNames
      (reference.names.filter fun named => scope.Fails file named) := by
  have quiet (element : TypeReference) : (scope.elementProblems file element).ofNames = [] :=
    (scope.among_valueProblems _ _ _).ofNames_eq_nil (by decide)
  induction reference with
  | named location name annotations => exact blames_nameProblems built distinct name location
  | list location element annotations induction =>
      rw [referenceProblems, ofNames_append, quiet, List.append_nil]
      exact induction
  | set location element annotations induction =>
      rw [referenceProblems, ofNames_append, quiet, List.append_nil]
      exact induction
  | map location key value annotations induction induction' =>
      rw [referenceProblems, ofNames_append, ofNames_append, ofNames_append, quiet, quiet,
        List.append_nil, List.append_nil, TypeReference.names, List.filter_append]
      exact List.rel_append induction induction'

open Classical in
theorem blames_parameters (reference : TypeReference) :
    List.Forall₂ (scope.BlamesPosition file)
      ((scope.referenceProblems file reference).ofKind .invalidFieldType)
      ((reference.parameters.map ("collection element", ·)).filter fun position =>
        scope.Valueless file position.2) := by
  have here (element : TypeReference) : List.Forall₂ (scope.BlamesPosition file)
      ((scope.elementProblems file element).ofKind .invalidFieldType)
      ([("collection element", element)].filter fun position =>
        scope.Valueless file position.2) := by
    rw [elementProblems, (scope.among_valueProblems _ _ _).ofKind_eq_self]
    exact blames_valueProblems built distinct "collection element" element
  induction reference with
  | named location name annotations =>
      have none_here : (scope.nameProblems file name location).ofKind .invalidFieldType = [] :=
        (scope.among_nameProblems name location).ofKind_eq_nil (by decide)
      rw [referenceProblems, none_here]
      exact .nil
  | list location element annotations induction =>
      rw [referenceProblems, ofKind_append, TypeReference.parameters, List.map_append,
        List.filter_append]
      exact List.rel_append induction (here element)
  | set location element annotations induction =>
      rw [referenceProblems, ofKind_append, TypeReference.parameters, List.map_append,
        List.filter_append]
      exact List.rel_append induction (here element)
  | map location key value annotations induction induction' =>
      rw [referenceProblems, ofKind_append, ofKind_append, ofKind_append, TypeReference.parameters,
        List.map_append, List.map_append, List.map_append, List.filter_append, List.filter_append,
        List.filter_append]
      exact List.rel_append (List.rel_append induction (here key))
        (List.rel_append induction' (here value))

/-- A reference is resolved as it is meant in the graph that it is resolved in. -/
theorem resolves_here (use : TypeUse × TypeReference) :
    scope.Resolves file use (scope.link file use.2 scope.graph) (scope.useProblems file use) := by
  have declares := declares_denote built.wellFormed file use.2
  have adds := TypeGraph.adds_internExpression built.wellFormed declares
  obtain ⟨grown, collections⟩ := built.internExpression declares
  constructor
  case means =>
    intro expression
    rw [means_iff built distinct, ← adds.expression]
    rfl
  case inside => exact adds.inside
  case built => exact grown
  case users => exact adds.users
  case collections => exact collections
  case names =>
    have blamed := blames_names built distinct use.2
    rw [useProblems, ofNames_append]
    cases use.1.valuePosition? with
    | none => exact (List.append_nil _).symm ▸ blamed
    | some position =>
        dsimp only
        rw [(scope.among_valueProblems _ _ _).ofNames_eq_nil (by decide), List.append_nil]
        exact blamed
  case positions =>
    rw [useProblems, ofKind_append, TypeUse.positions, List.filter_append]
    refine List.rel_append (blames_parameters built distinct use.2) ?_
    cases use.1.valuePosition? with
    | none => exact .nil
    | some position =>
        dsimp only
        rw [(scope.among_valueProblems _ _ _).ofKind_eq_self]
        exact blames_valueProblems built distinct position use.2
  case warnings =>
    intro problem member
    rw [ofKind_useProblems, List.mem_flatMap] at member
    obtain ⟨named, named_mem, warned⟩ := member
    obtain ⟨id, stands, wanted⟩ := exists_of_mem_nameWarnings warned
    obtain ⟨user, found, deprecated, at_location⟩ := exists_of_mem_deprecation wanted
    exact ⟨deprecated.1, named, named_mem, at_location, id, user,
      (standsFor_iff built distinct).mpr stands, found, deprecated.2⟩
  case others => exact among_useProblems use

end

/-! ## Resolving while the graph grows -/

/-- Two scopes have the same files and know the same of declared types, before they are linked. -/
structure Agrees (scope scope' : Scope) : Prop where
  files : scope'.files = scope.files
  warns : scope'.warnDeprecated = scope.warnDeprecated
  lookup : scope'.graph.lookup = scope.graph.lookup
  declared : ∀ id, (scope'.graph.user? id).map (·.declaration) =
    (scope.graph.user? id).map (·.declaration)

namespace Agrees

variable {scope' : Scope} (agrees : scope.Agrees scope')

include agrees

theorem kind?_eq (id : TypeId) : scope'.graph.kind? id = scope.graph.kind? id := by
  rw [TypeGraph.kind?_eq_declaration, TypeGraph.kind?_eq_declaration, agrees.declared]

theorem typeName_eq_of_kind? {id : TypeId} {kind : UserTypeKind}
    (known : scope.graph.kind? id = some kind) :
    scope'.graph.typeName id = scope.graph.typeName id := by
  obtain ⟨user, found, _⟩ := Option.map_eq_some_iff.mp known
  have declared := agrees.declared id
  rw [found, Option.map_some] at declared
  obtain ⟨user', found', same⟩ := Option.map_eq_some_iff.mp declared
  have name_eq : user'.name = user.name := congrArg (fun user => user.name) same
  rw [TypeGraph.typeName_of_user? found, TypeGraph.typeName_of_user? found', name_eq]

theorem failure_eq (name : String) (location : Location) (cause : NameFailure) :
    scope'.failure name location cause = scope.failure name location cause := by
  cases cause with
  | unknown => rfl
  | unknownQualifier qualifier => rfl
  | sharedQualifier qualifier files => rw [failure, failure, agrees.files]
  | declaredTwice types =>
      have declared : (types.filterMap scope'.graph.user?).map (·.declaration) =
          (types.filterMap scope.graph.user?).map (·.declaration) := by
        rw [List.map_filterMap, List.map_filterMap]
        exact List.filterMap_congr fun id _ => agrees.declared id
      have folded := congrArg (List.foldl (fun diagnostic user =>
        diagnostic.relatedTo ("`" ++ user.name.text ++ "` is declared here") user.location)
        (Diagnostic.detailed .ambiguousType location name)) declared
      rw [List.foldl_map, List.foldl_map] at folded
      exact folded

theorem deprecation_agrees (location : Location) (id : TypeId) :
    scope'.deprecation location id = scope.deprecation location id := by
  rw [deprecation_eq, deprecation_eq, agrees.declared, agrees.warns]

theorem nameProblems_eq (name : String) (location : Location) :
    scope'.nameProblems file name location = scope.nameProblems file name location := by
  rw [nameProblems, nameProblems, resolveName_congr agrees.files agrees.lookup]
  simp only [agrees.failure_eq, agrees.deprecation_agrees]

theorem valueProblems_eq (position : String) (location : Location)
    (expression : TypeExpression TypeId) :
    scope'.valueProblems position location expression =
      scope.valueProblems position location expression := by
  rw [valueProblems.eq_def, valueProblems.eq_def]
  cases expression with
  | user id =>
      dsimp only
      rw [agrees.kind?_eq]
      split
      · rename_i service
        rw [agrees.typeName_eq_of_kind? service]
      · rfl
  | builtin builtin => cases builtin <;> rfl
  | _ => rfl

theorem referenceProblems_eq (reference : TypeReference) :
    scope'.referenceProblems file reference = scope.referenceProblems file reference := by
  have elements (element : TypeReference) :
      scope'.elementProblems file element = scope.elementProblems file element := by
    rw [elementProblems, elementProblems, agrees.valueProblems_eq,
      denote_congr agrees.files agrees.lookup]
  induction reference with
  | named location name _ => exact agrees.nameProblems_eq name location
  | list _ element _ induction => rw [referenceProblems, referenceProblems, induction, elements]
  | set _ element _ induction => rw [referenceProblems, referenceProblems, induction, elements]
  | map _ key value _ induction induction' =>
      rw [referenceProblems, referenceProblems, induction, induction', elements, elements]

theorem useProblems_eq (use : TypeUse × TypeReference) :
    scope'.useProblems file use = scope.useProblems file use := by
  rw [useProblems, useProblems, agrees.referenceProblems_eq,
    denote_congr agrees.files agrees.lookup]
  simp only [agrees.valueProblems_eq]

theorem link_eq : scope'.link = scope.link := by
  funext file reference
  rw [link, link, denote_congr agrees.files agrees.lookup]

end Agrees

/-- The same scope with the graph as it is by now. -/
def inGraph (scope : Scope) (graph : TypeGraph) : Scope :=
  { scope with graph }

/-- Linking changes nothing that names and their problems depend on. -/
theorem agrees_inGraph (built : scope.graph.Built) {graph : TypeGraph} (built' : graph.Built)
    {touched : List TypeId} (grows : scope.graph.Grows touched graph) :
    scope.Agrees (scope.inGraph graph) :=
  ⟨rfl, rfl, grows.lookup_eq, grows.declaration_eq built.wellFormed built'.wellFormed⟩

/--
A type reference is resolved as it is meant, also while the graph grows: in a scope that knows the
graph as it was before some types were linked, resolving gives what it means by now.
-/
theorem resolves_use (built : scope.graph.Built) {graph : TypeGraph} (built' : graph.Built)
    {touched : List TypeId} (grows : TypeGraph.Grows touched scope.graph graph)
    (distinct : (scope.files.includes file).Nodup) (use : TypeUse × TypeReference) :
    (scope.inGraph graph).Resolves file use (scope.link file use.2 graph)
      (scope.useProblems file use) := by
  have agrees := agrees_inGraph built built' grows
  rw [← agrees.link_eq, ← agrees.useProblems_eq]
  exact @resolves_here (scope.inGraph graph) file built' distinct use

/-- A file with a service includes two files with the same qualifier that declare the same name. -/
def crossedIncludes : Scope :=
  let file (path : String) (includes : List FileId) : SchemaFile :=
    { path, tree := FileTree.empty path, includes }
  let declare (file : FileId) (name : String) (kind : UserTypeKind) (graph : TypeGraph) : TypeGraph :=
    (TypeGraph.declare ⟨file, "", name⟩ kind (.start name) false graph).2
  { files := { files := [file "main.thrift" [⟨1⟩, ⟨2⟩], file "a/item.thrift" [],
      file "b/item.thrift" []] }
    graph := declare ⟨2⟩ "Item" .enum
      (declare ⟨1⟩ "Item" .enum (declare ⟨0⟩ "Api" .service .initial))
    warnDeprecated := true }

/-- A map from an ambiguous name to a service. -/
def crossedUse : TypeUse × TypeReference :=
  let named (name : String) : TypeReference := .named (.start name) name .empty
  (.field, .map (.start "main.thrift") (named "Item") (named "Api") .empty)

theorem resolves_crossedIncludes :
    (crossedIncludes.useProblems ⟨0⟩ crossedUse).map (·.kind) =
        [.ambiguousType, .invalidFieldType] ∧
      (crossedIncludes.inGraph crossedIncludes.graph).Resolves ⟨0⟩ crossedUse
        (crossedIncludes.link ⟨0⟩ crossedUse.2 crossedIncludes.graph)
        (crossedIncludes.useProblems ⟨0⟩ crossedUse) := by
  have built : crossedIncludes.graph.Built :=
    .declare _ _ _ _ (.declare _ _ _ _ (.declare _ _ _ _ .initial))
  have grows : TypeGraph.Grows [] crossedIncludes.graph crossedIncludes.graph := .refl _
  exact ⟨by decide +kernel, resolves_use built built grows (by decide) crossedUse⟩

end Scope
end IdlSchema
