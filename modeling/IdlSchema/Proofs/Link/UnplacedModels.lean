import IdlSchema.Link.Link
import IdlSchema.Proofs.Link.UnplacedScopes

/-!
# Linking types without positions

Declarations are linked in the same way without positions: they become the same types with the same
problems, and the same typedefs lead back to themselves.
-/

namespace IdlSchema

/-! ## Models -/

/-- A typedef without its position. -/
def TypedefType.unplaced (typedef : TypedefType) : TypedefType :=
  { typedef with header := typedef.header.unplaced }

/-- A member of an enum without its position. -/
def EnumMember.unplaced (member : EnumMember) : EnumMember :=
  { member with header := member.header.unplaced }

/-- An enum without positions. -/
def EnumType.unplaced (enum : EnumType) : EnumType :=
  { enum with header := enum.header.unplaced, members := enum.members.map EnumMember.unplaced }

section

variable {ν : Type} (change : ν → ν)

/-- A field without its position, and its default changed. -/
def Field.unplaced (field : Field ν) : Field ν :=
  { field with header := field.header.unplaced, default? := field.default?.map change }

/-- A struct without positions, and all defaults changed. -/
def StructType.unplaced (struct : StructType ν) : StructType ν :=
  { struct with
    header := struct.header.unplaced, fields := struct.fields.map (Field.unplaced change) }

/-- A method without positions, and all defaults changed. -/
def Method.unplaced (method : Method ν) : Method ν :=
  { method with
    header := method.header.unplaced
    parameters := method.parameters.map (Field.unplaced change)
    exceptions := method.exceptions.map (Field.unplaced change) }

/-- A service without positions, and all defaults changed. -/
def ServiceType.unplaced (service : ServiceType ν) : ServiceType ν :=
  { service with
    header := service.header.unplaced, methods := service.methods.map (Method.unplaced change) }

/-- A constant without its position, and its value changed. -/
def Constant.unplaced (constant : Constant ν) : Constant ν :=
  { constant with header := constant.header.unplaced, value := change constant.value }

/-- A model without positions, and all values changed. -/
def Model.unplaced (model : Model ν) : Model ν :=
  { typedefs := model.typedefs.map TypedefType.unplaced
    enums := model.enums.map EnumType.unplaced
    structs := model.structs.map (StructType.unplaced change)
    services := model.services.map (ServiceType.unplaced change)
    constants := model.constants.map (Constant.unplaced change) }

end

/-! ## Linking -/

theorem linkMembers_unplaced (next : Int) (decls : List MemberDecl) :
    linkMembers next (decls.map MemberDecl.unplaced) =
      ((linkMembers next decls).1.map EnumMember.unplaced,
        (linkMembers next decls).2.map Diagnostic.unplaced) := by
  induction decls generalizing next with
  | nil => rfl
  | cons decl decls induction =>
      rw [List.map_cons, linkMembers, linkMembers]
      simp only [induction]
      have value : decl.unplaced.value? = decl.value? := rfl
      rw [value]
      split <;> rfl

namespace Scope

open TypeGraph

variable (scope : Scope) (file : FileId)

theorem follows_link (reference : TypeReference) :
    Follows TypeGraph.unplaced id (scope.link file reference)
      (scope.unplaced.link file reference.unplaced) := by
  rw [link, link, denote_unplaced]
  exact follows_internExpression (scope.denote file reference)

theorem follows_finish (id' : TypeId) :
    Follows TypeGraph.unplaced id (finish id') (finish id') :=
  .ofModify fun graph => graph.markResolved_unplaced id'

theorem follows_linkTypedef (decl : TypedefDecl) (id : TypeId) :
    Follows TypeGraph.unplaced TypedefType.unplaced (scope.linkTypedef file decl id)
      (scope.unplaced.linkTypedef file decl.unplaced id) := by
  refine .bind (scope.follows_link file decl.target) fun target => ?_
  refine .bind (.ofModify fun graph => graph.setTarget_unplaced id target) fun _ => ?_
  exact .bind (follows_finish id) fun _ => .ofPure _

theorem follows_linkEnum (decl : EnumDecl) (id : TypeId) :
    Follows TypeGraph.unplaced EnumType.unplaced (linkEnum file decl id)
      (linkEnum file decl.unplaced id) := by
  have members : (linkMembers 0 decl.unplaced.members).1 =
      (linkMembers 0 decl.members).1.map EnumMember.unplaced :=
    congrArg Prod.fst (linkMembers_unplaced 0 decl.members)
  rw [linkEnum, linkEnum, members]
  exact .bind (follows_finish id) fun _ => .ofPure _

theorem follows_linkFields (decls : List FieldDecl) :
    Follows TypeGraph.unplaced (List.map (Field.unplaced Literal.unplaced))
      (scope.linkFields file decls) (scope.unplaced.linkFields file (decls.map FieldDecl.unplaced)) :=
  .mapM fun decl _ => .bind (scope.follows_link file decl.type) fun _ => .ofPure _

theorem follows_linkStruct (decl : StructDecl) (id : TypeId) :
    Follows TypeGraph.unplaced (StructType.unplaced Literal.unplaced)
      (scope.linkStruct file decl id) (scope.unplaced.linkStruct file decl.unplaced id) := by
  refine .bind (scope.follows_linkFields file decl.fields) fun fields => ?_
  exact .bind (follows_finish id) fun _ => .ofPure _

theorem follows_linkMethod (decl : FunctionDecl) :
    Follows TypeGraph.unplaced (Method.unplaced Literal.unplaced)
      (scope.linkMethod file decl) (scope.unplaced.linkMethod file decl.unplaced) := by
  refine .bind (scope.follows_link file decl.returnType) fun returnType => ?_
  refine .bind (scope.follows_linkFields file decl.parameters) fun parameters => ?_
  exact .bind (scope.follows_linkFields file decl.exceptions) fun exceptions => .ofPure _

theorem follows_linkBase (reference? : Option TypeReference) :
    Follows TypeGraph.unplaced id (scope.linkBase file reference?)
      (scope.unplaced.linkBase file (reference?.map TypeReference.unplaced)) := by
  cases reference? with
  | none => exact .ofPure none
  | some reference => exact .bind (scope.follows_link file reference) fun _ => .ofPure _

theorem follows_linkService (decl : ServiceDecl) (id : TypeId) :
    Follows TypeGraph.unplaced (ServiceType.unplaced Literal.unplaced)
      (scope.linkService file decl id) (scope.unplaced.linkService file decl.unplaced id) := by
  refine .bind (scope.follows_linkBase file decl.base?) fun base? => ?_
  refine .bind (.mapM fun function _ => scope.follows_linkMethod file function) fun methods => ?_
  exact .bind (follows_finish id) fun _ => .ofPure _

theorem follows_linkConstant (decl : ConstantDecl) :
    Follows TypeGraph.unplaced (Constant.unplaced Literal.unplaced)
      (scope.linkConstant file decl) (scope.unplaced.linkConstant file decl.unplaced) :=
  .bind (scope.follows_link file decl.type) fun _ => .ofPure _

theorem follows_linkRefused (declarations : FileDeclarations) :
    Follows TypeGraph.unplaced id (scope.linkRefused declarations)
      (scope.unplaced.linkRefused declarations.unplaced) := by
  rw [linkRefused, linkRefused, declarations.refusedUses_unplaced]
  exact .forM fun use _ => .bind (scope.follows_link declarations.file use.2) fun _ => .ofPure _

theorem accepted_unplaced {δ ι : Type} (change : δ → δ) (attempts : List (Declared δ ι)) :
    (attempts.map (Declared.unplaced change)).filterMap Declared.accepted? =
      (attempts.filterMap Declared.accepted?).map fun (file, decl, id) =>
        (file, change decl, id) := by
  rw [List.filterMap_map, List.map_filterMap]
  exact List.filterMap_congr fun attempt _ => attempt.accepted?_unplaced change

theorem attempts_unplaced {δ ι : Type} (attempts : FileDeclarations → List (Declared δ ι))
    (change : δ → δ) (same : ∀ declarations : FileDeclarations,
      attempts declarations.unplaced = (attempts declarations).map (Declared.unplaced change))
    (all : List FileDeclarations) :
    (all.map FileDeclarations.unplaced).flatMap attempts =
      (all.flatMap attempts).map (Declared.unplaced change) := by
  rw [List.flatMap_map, List.map_flatMap, funext same]

theorem follows_linkAccepted {δ ι α : Type} {change : δ → δ} {alter : α → α}
    {step step' : FileId → δ → ι → StateM TypeGraph α}
    (each : ∀ file decl id, Follows TypeGraph.unplaced alter (step file decl id)
      (step' file (change decl) id)) (attempts : List (Declared δ ι)) :
    Follows TypeGraph.unplaced (List.map alter) (linkAccepted attempts step)
      (linkAccepted (attempts.map (Declared.unplaced change)) step') := by
  have accepted := accepted_unplaced change attempts
  rw [linkAccepted, linkAccepted, accepted]
  exact .mapM fun accepted _ => each accepted.1 accepted.2.1 accepted.2.2

theorem follows_linkTypes (all : List FileDeclarations) :
    Follows TypeGraph.unplaced (Model.unplaced Literal.unplaced) (scope.linkTypes all)
      (scope.unplaced.linkTypes (all.map FileDeclarations.unplaced)) := by
  rw [linkTypes, linkTypes,
    attempts_unplaced (·.typedefs) TypedefDecl.unplaced (fun _ => rfl),
    attempts_unplaced (·.enums) EnumDecl.unplaced (fun _ => rfl),
    attempts_unplaced (·.structs) StructDecl.unplaced (fun _ => rfl),
    attempts_unplaced (·.services) ServiceDecl.unplaced (fun _ => rfl),
    attempts_unplaced (·.constants) ConstantDecl.unplaced (fun _ => rfl)]
  refine .bind (follows_linkAccepted scope.follows_linkTypedef _) fun typedefs => ?_
  refine .bind (follows_linkAccepted follows_linkEnum _) fun enums => ?_
  refine .bind (follows_linkAccepted scope.follows_linkStruct _) fun structs => ?_
  refine .bind (follows_linkAccepted scope.follows_linkService _) fun services => ?_
  refine .bind (.forM fun declarations _ => scope.follows_linkRefused declarations) fun _ => ?_
  refine .bind (follows_linkAccepted (fun file decl _ => scope.follows_linkConstant file decl) _)
    fun constants => ?_
  exact .ofPure (⟨typedefs, enums, structs, services, constants⟩ : Model Literal)

/-! ## Problems of types -/

theorem acceptedProblems_unplaced {δ ι : Type} {change : δ → δ}
    {uses : δ → List (TypeUse × TypeReference)}
    (same : ∀ decl, uses (change decl) = (uses decl).map unplacedUse)
    (attempts : List (Declared δ ι)) :
    (scope.unplaced.acceptedProblems (attempts.map (Declared.unplaced change)) uses).map
        Diagnostic.unplaced =
      (scope.acceptedProblems attempts uses).map Diagnostic.unplaced := by
  have accepted := accepted_unplaced change attempts
  rw [acceptedProblems, acceptedProblems, accepted]
  simp only [List.flatMap_map, List.map_flatMap, same, useProblems_unplaced]

theorem memberProblems_unplaced (attempts : List (Declared EnumDecl TypeId)) :
    (memberProblems (attempts.map (Declared.unplaced EnumDecl.unplaced))).map Diagnostic.unplaced =
      (memberProblems attempts).map Diagnostic.unplaced := by
  have accepted := accepted_unplaced EnumDecl.unplaced attempts
  have each (decl : EnumDecl) : (linkMembers 0 decl.unplaced.members).2 =
      (linkMembers 0 decl.members).2.map Diagnostic.unplaced :=
    congrArg Prod.snd (linkMembers_unplaced 0 decl.members)
  rw [memberProblems, memberProblems, accepted]
  simp only [List.flatMap_map, List.map_flatMap, each, List.map_map, Function.comp_def,
    Diagnostic.unplaced_unplaced]

theorem refusedProblems_unplaced (declarations : FileDeclarations) :
    (declarations.unplaced.refusedUses.flatMap
        (scope.unplaced.useProblems declarations.unplaced.file)).map Diagnostic.unplaced =
      (declarations.refusedUses.flatMap (scope.useProblems declarations.file)).map
        Diagnostic.unplaced := by
  rw [declarations.refusedUses_unplaced]
  simp only [List.flatMap_map, List.map_flatMap]
  exact congrArg (List.flatMap · declarations.refusedUses)
    (funext fun use => scope.useProblems_unplaced declarations.file use)

theorem typeProblems_unplaced (all : List FileDeclarations) :
    (scope.unplaced.typeProblems (all.map FileDeclarations.unplaced)).map Diagnostic.unplaced =
      (scope.typeProblems all).map Diagnostic.unplaced := by
  have all_refused : ((all.map FileDeclarations.unplaced).flatMap fun declarations =>
        declarations.refusedUses.flatMap (scope.unplaced.useProblems declarations.file)).map
          Diagnostic.unplaced =
      (all.flatMap fun declarations =>
        declarations.refusedUses.flatMap (scope.useProblems declarations.file)).map
          Diagnostic.unplaced := by
    rw [List.flatMap_map, List.map_flatMap, List.map_flatMap, funext scope.refusedProblems_unplaced]
  rw [typeProblems, typeProblems,
    attempts_unplaced (·.typedefs) TypedefDecl.unplaced (fun _ => rfl),
    attempts_unplaced (·.enums) EnumDecl.unplaced (fun _ => rfl),
    attempts_unplaced (·.structs) StructDecl.unplaced (fun _ => rfl),
    attempts_unplaced (·.services) ServiceDecl.unplaced (fun _ => rfl),
    attempts_unplaced (·.constants) ConstantDecl.unplaced (fun _ => rfl)]
  simp only [List.map_append, all_refused, memberProblems_unplaced,
    scope.acceptedProblems_unplaced TypedefDecl.uses_unplaced,
    scope.acceptedProblems_unplaced StructDecl.uses_unplaced,
    scope.acceptedProblems_unplaced ServiceDecl.uses_unplaced,
    scope.acceptedProblems_unplaced ConstantDecl.uses_unplaced]

end Scope

/-! ## Typedefs that lead back to themselves -/

namespace TypedefType

theorem mentionGraph_unplaced (graph : TypeGraph) (typedefs : List TypedefType) :
    mentionGraph graph.unplaced (typedefs.map unplaced) = mentionGraph graph typedefs := by
  rw [mentionGraph, mentionGraph, List.map_map]
  refine congrArg Digraph.mk (List.map_congr_left fun typedef _ => ?_)
  simp only [mentions, Function.comp_apply, TypeGraph.expression_unplaced, List.findIdx?_map]
  rfl

theorem cycleProblem_unplaced (typedefs : List TypedefType) (cycles : Digraph)
    (component : List Nat) : cycleProblem (typedefs.map unplaced) cycles component =
      (cycleProblem typedefs cycles component).map Diagnostic.unplaced := by
  cases component with
  | nil => rfl
  | cons first others =>
      have at_place (place : Nat) :
          (typedefs.map unplaced)[place]? = (typedefs[place]?).map unplaced :=
        List.getElem?_map
      have named (place : Nat) : ((typedefs[place]?).map unplaced).map (·.name) =
          (typedefs[place]?).map (·.name) := by
        rw [Option.map_map]
        rfl
      have mentions : others.filterMap (fun place => (typedefs[place]?).map unplaced) =
          (others.filterMap (typedefs[·]?)).map unplaced := by
        rw [List.map_filterMap]
      simp only [cycleProblem, at_place, named, mentions, List.foldl_map, Option.map_map]
      refine congrArg (Option.map · _) (funext fun head => ?_)
      simp only [Function.comp_apply, Diagnostic.unplaced_foldl_relatedTo,
        Diagnostic.unplaced_detailed]
      rfl

theorem cycleProblems_unplaced (graph : TypeGraph) (typedefs : List TypedefType) :
    cycleProblems graph.unplaced (typedefs.map unplaced) =
      (cycleProblems graph typedefs).map Diagnostic.unplaced := by
  rw [cycleProblems, cycleProblems, mentionGraph_unplaced, List.map_filterMap]
  exact List.filterMap_congr fun component _ => cycleProblem_unplaced typedefs _ component

end TypedefType
end IdlSchema
