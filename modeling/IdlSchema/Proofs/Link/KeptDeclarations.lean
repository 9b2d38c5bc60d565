import IdlSchema.Proofs.Constants.ClearChecks

/-!
# Declarations and types as they are written

After a problem the linker goes on and leaves something out: a declaration whose name is taken, a
member whose value does not fit, a base that failed, a constant or a default without value.  Where
no error is reported nothing is left out, and the model has what is written, in order.

Types are linked kind by kind and not file by file, and those of refused declarations apart.  The
problems are still those of the types that are written in the files, in another order.
-/

namespace IdlSchema

open Diagnostics

namespace FileTable

/-- What is written in some files, each declaration with its file. -/
def written {δ : Type} (files : FileTable) (order : List FileId) (decls : FileTree → List δ) :
    List (FileId × δ) :=
  order.flatMap fun file => (decls (files.tree file)).map (file, ·)

end FileTable

/-! ## What it means to be kept -/

/-- A field is as it was written, with a default if one was written. -/
structure KeepsField (decl : FieldDecl) (field : Field ConstantValue) : Prop where
  header : field.header = decl.header
  id : field.id = decl.id
  requiredness : field.requiredness = decl.requiredness
  default? : field.default?.isSome = decl.default?.isSome

/-- A member is as it was written, with the value that was written. -/
structure KeepsMember (decl : MemberDecl) (member : EnumMember) : Prop where
  header : member.header = decl.header
  value : ∀ value, decl.value? = some value → member.value = value

/-- A typedef is as it was written. -/
structure KeepsTypedef (written : FileId × TypedefDecl) (typedef : TypedefType) : Prop where
  header : typedef.header = written.2.header
  file : typedef.file = written.1

/-- An enum has all members that were written. -/
structure KeepsEnum (written : FileId × EnumDecl) (enum : EnumType) : Prop where
  header : enum.header = written.2.header
  file : enum.file = written.1
  members : List.Forall₂ KeepsMember written.2.members enum.members

/-- A struct, a union or an exception has all fields that were written. -/
structure KeepsStruct (written : FileId × StructDecl) (struct : StructType ConstantValue) :
    Prop where
  header : struct.header = written.2.header
  file : struct.file = written.1
  kind : struct.kind = written.2.kind
  fields : List.Forall₂ KeepsField written.2.fields struct.fields

/-- A method has all parameters and exceptions that were written. -/
structure KeepsMethod (decl : FunctionDecl) (method : Method ConstantValue) : Prop where
  header : method.header = decl.header
  oneWay : method.oneWay = decl.oneWay
  parameters : List.Forall₂ KeepsField decl.parameters method.parameters
  exceptions : List.Forall₂ KeepsField decl.exceptions method.exceptions

/-- A service has the base and all methods that were written. -/
structure KeepsService (written : FileId × ServiceDecl) (service : ServiceType ConstantValue) :
    Prop where
  header : service.header = written.2.header
  file : service.file = written.1
  base? : service.base?.isSome = written.2.base?.isSome
  methods : List.Forall₂ KeepsMethod written.2.functions service.methods

/-- A constant is as it was written. -/
structure KeepsConstant (written : FileId × ConstantDecl) (constant : Constant ConstantValue) :
    Prop where
  header : constant.header = written.2.header
  file : constant.file = written.1

/-- A model has everything that is written in some files, once and in order. -/
structure KeepsModel (files : FileTable) (order : List FileId) (model : Model ConstantValue) :
    Prop where
  typedefs : List.Forall₂ KeepsTypedef (files.written order (·.typedefs)) model.typedefs
  enums : List.Forall₂ KeepsEnum (files.written order (·.enums)) model.enums
  structs : List.Forall₂ KeepsStruct (files.written order (·.structs)) model.structs
  services : List.Forall₂ KeepsService (files.written order (·.services)) model.services
  constants : List.Forall₂ KeepsConstant (files.written order (·.constants)) model.constants

/-! ## What the linker keeps -/

/-- Without errors, all members of an enum are kept. -/
theorem keeps_linkMembers {next : Int} {decls : List MemberDecl}
    (clear : Clear (linkMembers next decls).2) :
    List.Forall₂ KeepsMember decls (linkMembers next decls).1 := by
  induction decls generalizing next with
  | nil => exact .nil
  | cons decl decls induction =>
      rw [linkMembers] at clear ⊢
      dsimp only at clear ⊢
      split
      · rename_i fits
        rw [if_pos fits] at clear
        refine .cons ⟨rfl, fun value written => ?_⟩ (induction clear)
        rw [written]
        exact Int32.ofInt_toInt value
      · rename_i overflows
        rw [if_neg overflows] at clear
        exact absurd clear (not_clear_of_mem List.mem_cons_self rfl)

namespace FileDeclarations

variable {files : FileTable} {order : List FileId} {all : List FileDeclarations} {δ ι : Type}
  {decls : FileTree → List δ} {attempts : FileDeclarations → List (Declared δ ι)}

/-- Without errors, all that is written in some files is accepted, in order. -/
theorem accepted_eq_written
    (records : List.Forall₂ (fun file declarations =>
      Declared.Records file (decls (files.tree file)) (attempts declarations)) order all)
    (clear : ∀ declarations ∈ all, Clear ((attempts declarations).filterMap (·.problem?))) :
    ((all.flatMap attempts).filterMap (·.accepted?)).map
      (fun accepted => (accepted.1, accepted.2.1)) = files.written order decls := by
  induction records with
  | nil => rfl
  | cons first _ induction =>
      rw [List.flatMap_cons, List.filterMap_append, List.map_append, FileTable.written,
        List.flatMap_cons, first.accepted (clear _ List.mem_cons_self)]
      congr 1
      exact induction fun declarations member => clear declarations (List.mem_cons_of_mem _ member)

/-- What each accepted declaration becomes keeps what is written. -/
theorem forall₂_written {β : Type} {linked : FileId × δ × ι → β → Prop}
    {keeps : FileId × δ → β → Prop} {results : List β}
    (same : ((all.flatMap attempts).filterMap (·.accepted?)).map
      (fun accepted => (accepted.1, accepted.2.1)) = files.written order decls)
    (links : List.Forall₂ linked ((all.flatMap attempts).filterMap (·.accepted?)) results)
    (keep : ∀ accepted ∈ (all.flatMap attempts).filterMap (·.accepted?), ∀ result ∈ results,
      linked accepted result → keeps (accepted.1, accepted.2.1) result) :
    List.Forall₂ keeps (files.written order decls) results := by
  rw [← same, List.forall₂_map_left_iff]
  generalize (all.flatMap attempts).filterMap (·.accepted?) = accepteds at links keep
  clear same
  induction links with
  | nil => exact .nil
  | cons first _ induction =>
      refine .cons (keep _ List.mem_cons_self _ List.mem_cons_self first) (induction ?_)
      exact fun accepted member result result_mem =>
        keep accepted (List.mem_cons_of_mem _ member) result (List.mem_cons_of_mem _ result_mem)

end FileDeclarations
end IdlSchema

/-! # Problems of the types that are written -/

namespace IdlSchema

open Diagnostics

namespace Declared

variable {δ ι : Type} {file : FileId} {decls : List δ} {attempts : List (Declared δ ι)}

/-- A declaration that is written is either accepted or refused. -/
theorem Records.flatMap_perm {β : Type} (records : Records file decls attempts)
    (problems : FileId → δ → List β) :
    ((attempts.filterMap (·.accepted?)).flatMap (fun (file, decl, _) => problems file decl) ++
      (attempts.filterMap (·.refused?)).flatMap (problems file)).Perm
        (decls.flatMap (problems file)) := by
  induction records with
  | nil => exact .refl _
  | @cons decl attempt decls attempts recorded _ induction =>
      obtain ⟨rfl, rfl, _⟩ := recorded
      cases result : attempt.result with
      | ok id =>
          have accepted : attempt.accepted? = some (attempt.file, attempt.decl, id) := by
            rw [accepted?, result]
          have refused : attempt.refused? = none := by rw [refused?, result]
          rw [List.filterMap_cons_some accepted, List.filterMap_cons_none refused,
            List.flatMap_cons, List.flatMap_cons, List.append_assoc]
          exact .append_left _ induction
      | error problem =>
          have accepted : attempt.accepted? = none := by rw [accepted?, result]
          have refused : attempt.refused? = some attempt.decl := by rw [refused?, result]
          rw [List.filterMap_cons_none accepted, List.filterMap_cons_some refused,
            List.flatMap_cons, List.flatMap_cons]
          refine .trans ?_ (.append_left _ induction)
          rw [← List.append_assoc, ← List.append_assoc]
          exact .append_right _ List.perm_append_comm

end Declared

namespace FileDeclarations

variable {files : FileTable} {order : List FileId} {all : List FileDeclarations} {δ ι : Type}
  {decls : FileTree → List δ} {attempts : FileDeclarations → List (Declared δ ι)}

theorem clear_problems {declarations : FileDeclarations} : Clear declarations.problems ↔
    Clear (declarations.typedefs.filterMap (·.problem?)) ∧
      Clear (declarations.enums.filterMap (·.problem?)) ∧
      Clear (declarations.structs.filterMap (·.problem?)) ∧
      Clear (declarations.services.filterMap (·.problem?)) ∧
      Clear (declarations.constants.filterMap (·.problem?)) := by
  simp only [problems, clear_append, and_assoc]

/-- What is accepted is written in its file. -/
theorem mem_of_accepted
    (records : List.Forall₂ (fun file declarations =>
      Declared.Records file (decls (files.tree file)) (attempts declarations)) order all)
    {accepted : FileId × δ × ι}
    (member : accepted ∈ (all.flatMap attempts).filterMap (·.accepted?)) :
    accepted.2.1 ∈ decls (files.tree accepted.1) := by
  obtain ⟨attempt, attempt_mem, same⟩ := List.mem_filterMap.mp member
  obtain ⟨declarations, listed, inside⟩ := List.mem_flatMap.mp attempt_mem
  obtain ⟨file, _, recorded⟩ := records.exists_of_mem_right listed
  obtain ⟨rfl, written⟩ := recorded.of_mem (List.mem_filterMap.mpr ⟨attempt, inside, same⟩)
  exact written

end FileDeclarations

namespace Scope

variable {scope : Scope} {files : FileTable} {order : List FileId} {all : List FileDeclarations}

/-- The problems of the types that a file refers to are those of what it declares. -/
theorem problems_perm_of_records {file : FileId} {tree : FileTree} {declarations : FileDeclarations}
    (records : declarations.Records file tree) :
    (scope.acceptedProblems declarations.typedefs (·.uses) ++
      (scope.acceptedProblems declarations.structs (·.uses) ++
        (scope.acceptedProblems declarations.services (·.uses) ++
          (declarations.refusedUses.flatMap (scope.useProblems declarations.file) ++
            scope.acceptedProblems declarations.constants (·.uses))))).Perm
      (tree.uses.flatMap (scope.useProblems file)) := by
  have each {δ ι : Type} {decls : List δ} {attempts : List (Declared δ ι)}
      (records : Declared.Records file decls attempts) (uses : δ → List (TypeUse × TypeReference)) :
      (scope.acceptedProblems attempts uses ++
        ((attempts.filterMap (·.refused?)).flatMap uses).flatMap (scope.useProblems file)).Perm
          ((decls.flatMap uses).flatMap (scope.useProblems file)) := by
    rw [List.flatMap_assoc, List.flatMap_assoc]
    exact records.flatMap_perm fun file decl => (uses decl).flatMap (scope.useProblems file)
  classical
  rw [records.same_file, FileDeclarations.refusedUses, FileTree.uses, List.perm_iff_count]
  intro problem
  have typedefs := (each records.typedefs (·.uses)).count_eq problem
  have structs := (each records.structs (·.uses)).count_eq problem
  have services := (each records.services (·.uses)).count_eq problem
  have constants := (each records.constants (·.uses)).count_eq problem
  simp only [List.flatMap_append, List.count_append] at typedefs structs services constants ⊢
  omega

/--
The problems of types are those of members and those of what is written, whatever is accepted of it.
-/
theorem typeProblems_perm
    (records : List.Forall₂ (fun file declarations =>
      declarations.Records file (files.tree file)) order all) :
    (scope.typeProblems all).Perm (memberProblems (all.flatMap (·.enums)) ++
      order.flatMap fun file => (files.tree file).uses.flatMap (scope.useProblems file)) := by
  have by_file : (all.flatMap fun declarations =>
      scope.acceptedProblems declarations.typedefs (·.uses) ++
        (scope.acceptedProblems declarations.structs (·.uses) ++
          (scope.acceptedProblems declarations.services (·.uses) ++
            (declarations.refusedUses.flatMap (scope.useProblems declarations.file) ++
              scope.acceptedProblems declarations.constants (·.uses))))).Perm
      (order.flatMap fun file => (files.tree file).uses.flatMap (scope.useProblems file)) := by
    induction records with
    | nil => exact .refl _
    | cons first _ induction =>
        rw [List.flatMap_cons, List.flatMap_cons]
        exact (problems_perm_of_records first).append induction
  have accepted {δ ι : Type} (attempts : FileDeclarations → List (Declared δ ι))
      (uses : δ → List (TypeUse × TypeReference)) :
      scope.acceptedProblems (all.flatMap attempts) uses =
        all.flatMap fun declarations => scope.acceptedProblems (attempts declarations) uses := by
    rw [acceptedProblems, List.filterMap_flatMap, List.flatMap_assoc]
    rfl
  -- The kinds are collected from the last one on, and the members are moved to the front.
  have collect (f g : FileDeclarations → Diagnostics) {others : Diagnostics}
      (behind : others.Perm (all.flatMap g)) :
      (all.flatMap f ++ others).Perm (all.flatMap fun declarations =>
        f declarations ++ g declarations) :=
    (behind.append_left _).trans (List.flatMap_append_perm all f g)
  simp only [typeProblems, accepted, List.append_assoc]
  refine (List.perm_append_comm_assoc ..).trans (.append_left _ (.trans ?_ by_file))
  exact collect _ _ (collect _ _ (collect _ _ (collect _ _ (.refl _))))

end Scope
end IdlSchema
