import IdlSchema.Proofs.Constants.Demands
import IdlSchema.Proofs.Constants.PlanInvariant
import IdlSchema.Proofs.Link.Linked

/-!
# The kinds of problems that linking finds

Each step of linking reports problems of its own kinds.  Names that are taken are found when names
are declared, failed references when types are linked, and typedefs that lead back to themselves
and constants that depend on themselves in steps of their own.
-/

namespace IdlSchema

open Diagnostics

/-! ## Declaring names -/

theorem Declared.Records.among {δ ι : Type} {file : FileId} {decls : List δ}
    {attempts : List (Declared δ ι)} (records : Declared.Records file decls attempts) :
    Among [.duplicateSymbol] (attempts.filterMap (·.problem?)) := by
  intro problem reported
  obtain ⟨attempt, member, same⟩ := List.mem_filterMap.mp reported
  obtain ⟨decl, _, _, _, kind⟩ := records.exists_of_mem_right member
  rw [problem?] at same
  split at same
  · cases same
  · rename_i result
    cases same
    exact List.mem_singleton.mpr (kind problem result)

theorem FileDeclarations.Records.among {declarations : FileDeclarations} {file : FileId}
    {tree : FileTree} (records : declarations.Records file tree) :
    Among [.duplicateSymbol] declarations.problems := by
  simp only [problems, among_append]
  exact ⟨⟨⟨⟨records.typedefs.among, records.enums.among⟩, records.structs.among⟩,
    records.services.among⟩, records.constants.among⟩

theorem FileTable.among_declared (files : FileTable) (order : List FileId) :
    Among [.duplicateSymbol] ((files.declared order).1.flatMap (·.problems)) := by
  refine among_flatMap fun declarations listed => ?_
  obtain ⟨file, _, records⟩ :=
    (files.records_declared order).exists_of_mem_right listed
  exact records.among

/-! ## Linking types -/

namespace Scope

/-- The kinds of problems that a name can have. -/
def nameKinds : List DiagnosticKind :=
  [.unresolvedType, .ambiguousType, .deprecatedUsage]

/-- The kinds of problems that a type reference can have. -/
def referenceKinds : List DiagnosticKind :=
  [.unresolvedType, .ambiguousType, .deprecatedUsage, .invalidFieldType]

/-- The kinds of problems that a type reference can have, and members of enums. -/
def typeKinds : List DiagnosticKind :=
  [.unresolvedType, .ambiguousType, .deprecatedUsage, .invalidFieldType, .typeMismatch]

variable {scope : Scope} {file : FileId}

theorem kind_failure (name : String) (location : Location) (cause : NameFailure) :
    (scope.failure name location cause).kind = .unresolvedType ∨
      (scope.failure name location cause).kind = .ambiguousType := by
  cases cause with
  | unknown => exact .inl rfl
  | unknownQualifier qualifier => exact .inl rfl
  | sharedQualifier qualifier files => exact .inr (Diagnostic.foldl_relatedTo ..).1
  | declaredTwice types => exact .inr (Diagnostic.foldl_relatedTo ..).1

theorem among_failure (name : String) (location : Location) (cause : NameFailure) :
    Among [.unresolvedType, .ambiguousType] [scope.failure name location cause] :=
  among_singleton (by simpa using scope.kind_failure name location cause)

theorem among_deprecation (location : Location) (id : TypeId) :
    Among [.deprecatedUsage] (scope.deprecation location id) := by
  rw [deprecation]
  split
  · split
    · exact among_singleton (List.mem_singleton.mpr rfl)
    · exact among_nil
  · exact among_nil

theorem among_nameProblems (name : String) (location : Location) :
    Among nameKinds (scope.nameProblems file name location) := by
  rw [nameProblems]
  split
  · exact (among_deprecation location _).mono (by decide)
  · exact among_nil
  · exact (among_failure name location _).mono (by decide)

theorem among_valueProblems (position : String) (location : Location)
    (expression : TypeExpression TypeId) :
    Among [.invalidFieldType] (scope.valueProblems position location expression) := by
  rw [valueProblems.eq_def]
  split
  · exact among_singleton (List.mem_singleton.mpr rfl)
  · split
    · exact among_singleton (List.mem_singleton.mpr rfl)
    · exact among_nil
  · exact among_nil

theorem among_referenceProblems (reference : TypeReference) :
    Among referenceKinds (scope.referenceProblems file reference) := by
  have element (reference : TypeReference) :
      Among referenceKinds (scope.elementProblems file reference) :=
    (among_valueProblems _ _ _).mono (by decide)
  induction reference with
  | named location name _ => exact (among_nameProblems name location).mono (by decide)
  | list _ item _ induction => exact among_append.mpr ⟨induction, element item⟩
  | set _ item _ induction => exact among_append.mpr ⟨induction, element item⟩
  | map _ key value _ induction induction' =>
      exact among_append.mpr ⟨among_append.mpr ⟨induction, element key⟩,
        among_append.mpr ⟨induction', element value⟩⟩

theorem among_useProblems (use : TypeUse × TypeReference) :
    Among referenceKinds (scope.useProblems file use) := by
  refine among_append.mpr ⟨among_referenceProblems use.2, ?_⟩
  split
  · exact (among_valueProblems _ _ _).mono (by decide)
  · exact among_nil

theorem among_linkMembers (next : Int) (members : List MemberDecl) :
    Among [.typeMismatch] (linkMembers next members).2 := by
  induction members generalizing next with
  | nil => exact among_nil
  | cons member members induction =>
      rw [linkMembers]
      dsimp only
      split
      · exact induction _
      · exact List.forall_mem_cons.mpr ⟨List.mem_singleton.mpr rfl, induction next⟩

theorem among_memberProblems (declared : List (Declared EnumDecl TypeId)) :
    Among [.typeMismatch] (memberProblems declared) :=
  among_flatMap fun _ _ => among_linkMembers _ _

theorem among_acceptedProblems {δ ι : Type} (declared : List (Declared δ ι))
    (uses : δ → List (TypeUse × TypeReference)) :
    Among referenceKinds (scope.acceptedProblems declared uses) :=
  among_flatMap fun _ _ => among_flatMap fun use _ => among_useProblems use

theorem among_refusedProblems (all : List FileDeclarations) :
    Among referenceKinds (all.flatMap fun declarations =>
      declarations.refusedUses.flatMap (scope.useProblems declarations.file)) :=
  among_flatMap fun _ _ => among_flatMap fun use _ => among_useProblems use

theorem among_typeProblems (all : List FileDeclarations) :
    Among typeKinds (scope.typeProblems all) := by
  have references : referenceKinds ⊆ typeKinds := by decide
  simp only [typeProblems, among_append]
  exact ⟨⟨⟨⟨⟨(among_acceptedProblems _ _).mono references,
    (among_memberProblems _).mono (by decide)⟩, (among_acceptedProblems _ _).mono references⟩,
    (among_acceptedProblems _ _).mono references⟩, (among_refusedProblems all).mono references⟩,
    (among_acceptedProblems _ _).mono references⟩

end Scope

/-! ## Typedef cycles -/

theorem TypedefType.kind_of_cycleProblem {typedefs : List TypedefType} {cycles : Digraph}
    {component : List Nat} {problem : Diagnostic}
    (reported : cycleProblem typedefs cycles component = some problem) :
    problem.kind = .cyclicTypedef := by
  cases component with
  | nil => cases reported
  | cons first others =>
      obtain ⟨head, _, rfl⟩ := Option.map_eq_some_iff.mp reported
      exact (Diagnostic.foldl_relatedTo ..).1

theorem TypedefType.among_cycleProblems (graph : TypeGraph) (typedefs : List TypedefType) :
    Among [.cyclicTypedef] (cycleProblems graph typedefs) := by
  intro problem reported
  obtain ⟨component, _, found⟩ := List.mem_filterMap.mp reported
  exact List.mem_singleton.mpr (kind_of_cycleProblem found)

/-! ## Checking constants -/

namespace ConstantScope

variable {scope : ConstantScope} {kinds : List DiagnosticKind} {atUse : Reference → Diagnostics}

/-- The kinds of problems that checking literals and constants can find. -/
def checkKinds : List DiagnosticKind :=
  .cyclicConstant :: literalKinds

theorem among_misuse (reference : Reference) (value? : Option ConstantValue) :
    Among literalKinds (scope.misuse reference value?) := by
  rw [misuse.eq_def]
  split
  · split
    · exact among_nil
    · exact among_singleton List.mem_cons_self
  · exact among_nil

theorem among_useProblems (stack : List Nat) (values : Nat → Option ConstantValue)
    (reference : Reference) : Among checkKinds (scope.useProblems stack values reference) := by
  rw [useProblems]
  split
  · exact among_singleton List.mem_cons_self
  · exact fun problem member => List.mem_cons_of_mem _ (among_misuse _ _ problem member)

theorem among_plan (own : literalKinds ⊆ kinds) (uses : ∀ reference, Among kinds (atUse reference))
    (file : FileId) (expected : TypeId) (literal : Literal) :
    Among kinds ((scope.plan file expected literal).problems atUse) := by
  have invariant : scope.PlanInvariant (fun _ => True) fun plan =>
      Among kinds (plan.problems atUse) :=
    { value := fun _ => among_nil
      silent := fun _ _ => among_nil
      refuse := fun known => among_singleton (own known)
      refer := fun _ _ => uses _
      both := fun first second => among_append.mpr ⟨first, second⟩
      element := fun _ _ _ => trivial
      entry := fun _ _ _ => ⟨trivial, trivial⟩
      field := fun _ _ _ _ => trivial }
  exact invariant.plan file trivial literal

theorem among_planAt (own : literalKinds ⊆ kinds)
    (uses : ∀ reference, Among kinds (atUse reference)) (index : Nat) :
    Among kinds ((scope.planAt index).problems atUse) := by
  rw [planAt]
  split
  · exact among_plan own uses _ _ _
  · exact among_nil

/-- Demands for values are met with problems of the kinds of checks. -/
theorem among_settled (scope : ConstantScope) (demands : List Demand) :
    Among checkKinds (scope.settled demands).reported := by
  have own : literalKinds ⊆ checkKinds := List.subset_cons_self ..
  obtain ⟨stack, _, reported⟩ := reported_settled scope demands
  intro problem member
  refine (among_append.mpr ⟨among_flatMap fun demand _ => ?_, among_flatMap fun index _ => ?_⟩)
    problem (reported.mem_iff.mp member)
  · cases demand with
    | literal file expected literal => exact among_plan own (among_useProblems _ _) file expected literal
    | constant index => exact among_nil
  · exact among_planAt own (among_useProblems _ _) index

end ConstantScope

theorem FileTable.among_checked (files : FileTable) (order : List FileId) (warnDeprecated : Bool) :
    Among ConstantScope.checkKinds (files.checked order warnDeprecated).2.reported := by
  rw [checked, ConstantScope.state_checkModel]
  exact ConstantScope.among_settled _ _

end IdlSchema
