import IdlSchema.Proofs.Link.MirroredTrees
import IdlSchema.Proofs.Tree.Renaming

/-!
# Uses of deprecated types

A warning is given for each name in a type reference that stands for a deprecated type, wherever the
reference is written.  Whether warnings are wanted makes no difference to anything else: the same
types are linked, and the same other problems are met in the same order.
-/

namespace IdlSchema

open Diagnostics FileDeclarations TypeGraph

namespace Scope

variable (scope : Scope) (file : FileId)

/-! ## Without warnings -/

/-- The same scope where the use of deprecated types is not reported. -/
def quiet : Scope :=
  { scope with warnDeprecated := false }

theorem denote_quiet : scope.quiet.denote = scope.denote := by
  funext file reference
  exact @denote_congr scope scope.quiet rfl rfl file reference

theorem nameProblems_quiet (name : String) (location : Location) :
    scope.quiet.nameProblems file name location =
      (scope.nameProblems file name location).exceptKind .deprecatedUsage := by
  have same : scope.quiet.resolveName file name = scope.resolveName file name := rfl
  rw [nameProblems, nameProblems, same]
  cases scope.resolveName file name with
  | error cause =>
      exact ((among_failure name location cause).exceptKind_eq_self (by decide)).symm
  | ok expression =>
      cases expression with
      | user id =>
          have silent : scope.quiet.deprecation location id = [] := by
            rw [deprecation]
            split <;> rfl
          exact silent.trans (among_deprecation location id).exceptKind_eq_nil.symm
      | _ => rfl

theorem valueProblems_quiet (position : String) (location : Location)
    (expression : TypeExpression TypeId) :
    scope.quiet.valueProblems position location expression =
      (scope.valueProblems position location expression).exceptKind .deprecatedUsage :=
  ((scope.among_valueProblems position location expression).exceptKind_eq_self (by decide)).symm

theorem elementProblems_quiet (element : TypeReference) : scope.quiet.elementProblems file element =
    (scope.elementProblems file element).exceptKind .deprecatedUsage := by
  rw [elementProblems, denote_quiet, valueProblems_quiet, elementProblems]

theorem referenceProblems_quiet (reference : TypeReference) :
    scope.quiet.referenceProblems file reference =
      (scope.referenceProblems file reference).exceptKind .deprecatedUsage := by
  induction reference with
  | named location name _ => exact scope.nameProblems_quiet file name location
  | list _ element _ induction =>
      rw [referenceProblems, referenceProblems, exceptKind_append, induction, elementProblems_quiet]
  | set _ element _ induction =>
      rw [referenceProblems, referenceProblems, exceptKind_append, induction, elementProblems_quiet]
  | map _ key value _ induction induction' =>
      simp only [referenceProblems, exceptKind_append, induction, induction', elementProblems_quiet]

/-- Without warnings, a type reference has the same problems but for them. -/
theorem useProblems_quiet : scope.quiet.useProblems =
    fun file use => (scope.useProblems file use).exceptKind .deprecatedUsage := by
  funext file use
  rw [useProblems, useProblems, exceptKind_append, referenceProblems_quiet, denote_quiet]
  refine congrArg _ ?_
  cases use.1.valuePosition? with
  | none => rfl
  | some position => exact scope.valueProblems_quiet position use.2.location _

theorem acceptedProblems_quiet {δ ι : Type} (declared : List (Declared δ ι))
    (uses : δ → List (TypeUse × TypeReference)) : scope.quiet.acceptedProblems declared uses =
      (scope.acceptedProblems declared uses).exceptKind .deprecatedUsage := by
  simp only [acceptedProblems, exceptKind_flatMap, useProblems_quiet]

/-- Without warnings, the same problems of types are met but for them. -/
theorem typeProblems_quiet (all : List FileDeclarations) : scope.quiet.typeProblems all =
    (scope.typeProblems all).exceptKind .deprecatedUsage := by
  have members : (memberProblems (all.flatMap (·.enums))).exceptKind .deprecatedUsage =
      memberProblems (all.flatMap (·.enums)) :=
    (among_memberProblems _).exceptKind_eq_self (by decide)
  simp only [typeProblems, exceptKind_append, exceptKind_flatMap, acceptedProblems_quiet,
    useProblems_quiet, members]

/-- Without warnings, the same types are linked. -/
theorem linkTypes_quiet : scope.quiet.linkTypes = scope.linkTypes := by
  have link : scope.quiet.link = scope.link := by
    funext file reference
    rw [Scope.link, Scope.link, denote_quiet]
  have linkFields : scope.quiet.linkFields = scope.linkFields := by
    funext file decls
    rw [Scope.linkFields, Scope.linkFields, link]
  have linkTypedef : scope.quiet.linkTypedef = scope.linkTypedef := by
    funext file decl id
    rw [Scope.linkTypedef, Scope.linkTypedef, link]
  have linkStruct : scope.quiet.linkStruct = scope.linkStruct := by
    funext file decl id
    rw [Scope.linkStruct, Scope.linkStruct, linkFields]
  have linkMethod : scope.quiet.linkMethod = scope.linkMethod := by
    funext file decl
    rw [Scope.linkMethod, Scope.linkMethod, link, linkFields]
  have linkBase : scope.quiet.linkBase = scope.linkBase := by
    funext file base?
    cases base? with
    | none => rfl
    | some base => rw [Scope.linkBase, Scope.linkBase, link]
  have linkService : scope.quiet.linkService = scope.linkService := by
    funext file decl id
    rw [Scope.linkService, Scope.linkService, linkBase, linkMethod]
  have linkRefused : scope.quiet.linkRefused = scope.linkRefused := by
    funext declarations
    rw [Scope.linkRefused, Scope.linkRefused, link]
  have linkConstant : scope.quiet.linkConstant = scope.linkConstant := by
    funext file decl
    rw [Scope.linkConstant, Scope.linkConstant, link]
  funext all
  rw [linkTypes, linkTypes, linkTypedef, linkStruct, linkService, linkRefused, linkConstant]

/-! ## Warnings -/

/-- A warning depends on what is known of a type before it is linked. -/
theorem deprecation_eq (location : Location) (id : TypeId) : scope.deprecation location id =
    ((scope.graph.user? id).map (·.declaration)).elim [] fun user =>
      if scope.warnDeprecated && user.deprecated then
        [.detailed .deprecatedUsage location user.name.text]
      else [] := by
  rw [deprecation]
  cases scope.graph.user? id <;> rfl

/-- The declared type that a name in a file stands for. -/
def declared? (name : String) : Option TypeId :=
  match scope.resolveName file name with
  | .ok (.user id) => some id
  | _ => none

/-- The warning for a name in a file, if it stands for a deprecated type. -/
def nameWarnings (named : Location × String) : Diagnostics :=
  (scope.declared? file named.2).toList.flatMap (scope.deprecation named.1)

theorem ofKind_nameProblems (name : String) (location : Location) :
    (scope.nameProblems file name location).ofKind .deprecatedUsage =
      scope.nameWarnings file (location, name) := by
  rw [nameProblems, nameWarnings, declared?]
  cases scope.resolveName file name with
  | error cause => exact (among_failure name location cause).ofKind_eq_nil (by decide)
  | ok expression =>
      cases expression with
      | user id =>
          dsimp only
          rw [(among_deprecation location id).ofKind_eq_self, Option.toList_some,
            List.flatMap_singleton]
      | _ => rfl

/-- The warnings for a reference are those for the names in it. -/
theorem ofKind_referenceProblems (reference : TypeReference) :
    (scope.referenceProblems file reference).ofKind .deprecatedUsage =
      reference.names.flatMap (scope.nameWarnings file) := by
  have element (item : TypeReference) :
      (scope.elementProblems file item).ofKind .deprecatedUsage = [] :=
    (scope.among_valueProblems _ _ _).ofKind_eq_nil (by decide)
  induction reference with
  | named location name _ =>
      rw [referenceProblems, ofKind_nameProblems, TypeReference.names, List.flatMap_singleton]
  | list _ item _ induction =>
      rw [referenceProblems, ofKind_append, induction, element, List.append_nil, TypeReference.names]
  | set _ item _ induction =>
      rw [referenceProblems, ofKind_append, induction, element, List.append_nil, TypeReference.names]
  | map _ key value _ induction induction' =>
      simp only [referenceProblems, ofKind_append, induction, induction', element, List.append_nil,
        TypeReference.names, List.flatMap_append]

theorem ofKind_useProblems (use : TypeUse × TypeReference) :
    (scope.useProblems file use).ofKind .deprecatedUsage =
      use.2.names.flatMap (scope.nameWarnings file) := by
  rw [useProblems, ofKind_append, ofKind_referenceProblems]
  split
  · rw [(among_valueProblems _ _ _).ofKind_eq_nil (by decide), List.append_nil]
  · exact List.append_nil _

/-- The warnings for what is written in some files are those for its names. -/
theorem ofKind_typeProblems_perm {files : FileTable} {order : List FileId}
    {all : List FileDeclarations} (records : List.Forall₂ (fun file declarations =>
      declarations.Records file (files.tree file)) order all) :
    ((scope.typeProblems all).ofKind .deprecatedUsage).Perm
      (order.flatMap fun file =>
        (useNames (files.tree file).uses).flatMap (scope.nameWarnings file)) := by
  refine (ofKind_perm (typeProblems_perm records)).trans (.of_eq ?_)
  have members : (memberProblems (all.flatMap (·.enums))).ofKind .deprecatedUsage = [] :=
    (among_memberProblems _).ofKind_eq_nil (by decide)
  simp only [ofKind_append, members, List.nil_append, ofKind_flatMap, ofKind_useProblems, useNames,
    List.flatMap_assoc]

end Scope

namespace FileTable

variable (files : FileTable) (order : List FileId) (warnDeprecated : Bool)

/-! ## Linking without warnings -/

theorem literals_quiet : files.literals order false = files.literals order true :=
  congrFun (congrFun (files.typeScope order true).linkTypes_quiet _) _

theorem checked_quiet : files.checked order false = files.checked order true := by
  have same : files.constantScope order false = files.constantScope order true := by
    rw [constantScope, constantScope, literals_quiet]
  rw [checked, checked, same]

theorem graph_link_quiet : (files.link order false).graph = (files.link order true).graph := by
  rw [link_eq, link_eq, literals_quiet]

theorem model_link_quiet : (files.link order false).model = (files.link order true).model := by
  rw [link_eq, link_eq, checked_quiet]

/-- The types are the same whether or not warnings are wanted. -/
theorem graph_link_eq (warnDeprecated : Bool) :
    (files.link order warnDeprecated).graph = (files.link order true).graph := by
  cases warnDeprecated with
  | true => rfl
  | false => exact graph_link_quiet files order

/-- The declarations are the same whether or not warnings are wanted. -/
theorem model_link_eq (warnDeprecated : Bool) :
    (files.link order warnDeprecated).model = (files.link order true).model := by
  cases warnDeprecated with
  | true => rfl
  | false => exact model_link_quiet files order

/-- Without warnings, the same problems are met in the same order but for them. -/
theorem reported_link_quiet : (files.link order false).reported =
    (files.link order true).reported.exceptKind .deprecatedUsage := by
  have types : (files.typeScope order false).typeProblems (files.declared order).1 =
      ((files.typeScope order true).typeProblems (files.declared order).1).exceptKind
        .deprecatedUsage :=
    (files.typeScope order true).typeProblems_quiet _
  rw [link_eq, link_eq, literals_quiet, checked_quiet]
  simp only [exceptKind_append]
  rw [types, (among_declared files order).exceptKind_eq_self (by decide),
    (TypedefType.among_cycleProblems _ _).exceptKind_eq_self (by decide),
    (among_checked files order true).exceptKind_eq_self (by decide)]

/-! ## Warnings in terms of the final model -/

/-- The final graph has what was declared of a type. -/
theorem declaration_literals (id : TypeId) :
    ((files.literals order warnDeprecated).2.user? id).map (·.declaration) =
      ((files.typeScope order warnDeprecated).graph.user? id).map (·.declaration) :=
  (links_literals files order warnDeprecated).grows.declaration_eq
    (wellFormed_typeScope files order warnDeprecated)
    (wellFormed_literals files order warnDeprecated) id

/-- The warnings for a name are the same once everything is linked. -/
theorem nameWarnings_linkedScope (file : FileId) (named : Location × String) :
    (files.linkedScope order warnDeprecated).nameWarnings file named =
      (files.typeScope order warnDeprecated).nameWarnings file named := by
  have resolved : (files.linkedScope order warnDeprecated).resolveName file named.2 =
      (files.typeScope order warnDeprecated).resolveName file named.2 :=
    @Scope.resolveName_congr (files.typeScope order warnDeprecated)
      (files.linkedScope order warnDeprecated) rfl (files.lookup_literals order warnDeprecated) file
      named.2
  rw [Scope.nameWarnings, Scope.nameWarnings, Scope.declared?, Scope.declared?, resolved]
  refine List.flatMap_congr fun id _ => ?_
  have declared : ((files.linkedScope order warnDeprecated).graph.user? id).map (·.declaration) =
      ((files.typeScope order warnDeprecated).graph.user? id).map (·.declaration) :=
    files.declaration_literals order warnDeprecated id
  rw [Scope.deprecation_eq, Scope.deprecation_eq, declared]
  rfl

end FileTable
end IdlSchema
