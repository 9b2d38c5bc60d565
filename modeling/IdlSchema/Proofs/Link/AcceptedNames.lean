import IdlSchema.Proofs.Link.DeclaredConstants
import IdlSchema.Proofs.Link.TypeNames
import IdlSchema.Proofs.Tree.Renaming

/-!
# Names that can all be declared

Whether some declarations are all accepted depends on nothing but their names: those of types are
no keywords and differ, with their files, from one another and from those that are known, and those
of constants do so among themselves.  The order in which they are declared plays no part.
-/

namespace IdlSchema

open Diagnostics

namespace Names

/-- What the declared types are known by. -/
def typeKeys (names : Names) : List (FileId × String) :=
  names.graph.users.map UserType.key

/-- What the constants are known by. -/
def constantKeys (names : Names) : List (FileId × String) :=
  names.constants.map constantKey

/-- Some types and constants can be declared next to those that are known, one for each name. -/
structure Usable (names : Names) (types constants : List (FileId × String)) : Prop where
  typesApart : (names.typeKeys ++ types).Nodup
  free : ∀ entry ∈ types, Builtin.ofKeyword? entry.2 = none
  constantsApart : (names.constantKeys ++ constants).Nodup

namespace Usable

variable {names : Names} {types types' constants constants' : List (FileId × String)}

/-- The order of names does not matter. -/
theorem perm (usable : names.Usable types constants) (same_types : types.Perm types')
    (same_constants : constants.Perm constants') : names.Usable types' constants' where
  typesApart := (same_types.append_left _).nodup_iff.mp usable.typesApart
  free entry member := usable.free entry (same_types.mem_iff.mpr member)
  constantsApart := (same_constants.append_left _).nodup_iff.mp usable.constantsApart

theorem left (usable : names.Usable (types ++ types') (constants ++ constants')) :
    names.Usable types constants where
  typesApart := usable.typesApart.sublist ((List.sublist_append_left _ _).append_left _)
  free entry member := usable.free entry (List.mem_append_left _ member)
  constantsApart := usable.constantsApart.sublist ((List.sublist_append_left _ _).append_left _)

/-- What is declared first is known to what is declared behind it. -/
theorem append_iff {after : Names} (same_types : after.typeKeys = names.typeKeys ++ types)
    (same_constants : after.constantKeys = names.constantKeys ++ constants) :
    names.Usable (types ++ types') (constants ++ constants') ↔
      names.Usable types constants ∧ after.Usable types' constants' := by
  constructor
  · refine fun usable => ⟨usable.left, ?_, ?_, ?_⟩
    · rw [same_types, List.append_assoc]
      exact usable.typesApart
    · exact fun entry member => usable.free entry (List.mem_append_right _ member)
    · rw [same_constants, List.append_assoc]
      exact usable.constantsApart
  · rintro ⟨first, second⟩
    constructor
    case typesApart =>
      rw [← List.append_assoc, ← same_types]
      exact second.typesApart
    case free => exact List.forall_mem_append.mpr ⟨first.free, second.free⟩
    case constantsApart =>
      rw [← List.append_assoc, ← same_constants]
      exact second.constantsApart

end Usable

/--
Some types and constants are declared without problem just where their names can be used, and are
known from then on.
-/
structure Admits (before : Names) (types constants : List (FileId × String))
    (problems : Diagnostics) (after : Names) : Prop where
  clear_iff : before.Usable [] [] → (Clear problems ↔ before.Usable types constants)
  typeKeys : Clear problems → after.typeKeys = before.typeKeys ++ types
  constantKeys : Clear problems → after.constantKeys = before.constantKeys ++ constants

namespace Admits

variable {before between after : Names} {types types' constants constants' : List (FileId × String)}
  {problems problems' : Diagnostics}

theorem none (same_types : after.typeKeys = before.typeKeys)
    (same_constants : after.constantKeys = before.constantKeys) :
    before.Admits [] [] [] after where
  clear_iff usable := iff_of_true clear_nil usable
  typeKeys _ := by rw [same_types, List.append_nil]
  constantKeys _ := by rw [same_constants, List.append_nil]

theorem trans (first : before.Admits types constants problems between)
    (second : between.Admits types' constants' problems' after) :
    before.Admits (types ++ types') (constants ++ constants') (problems ++ problems') after where
  clear_iff usable := by
    have split (clear : Clear problems) (types'' constants'' : List (FileId × String)) :
        before.Usable (types ++ types'') (constants ++ constants'') ↔
          before.Usable types constants ∧ between.Usable types'' constants'' :=
      Usable.append_iff (first.typeKeys clear) (first.constantKeys clear)
    have between_usable (clear : Clear problems) : between.Usable [] [] := by
      refine ((split clear [] []).mp ?_).2
      rw [List.append_nil, List.append_nil]
      exact (first.clear_iff usable).mp clear
    rw [clear_append]
    constructor
    · rintro ⟨clear, clear'⟩
      exact (split clear _ _).mpr ⟨(first.clear_iff usable).mp clear,
        (second.clear_iff (between_usable clear)).mp clear'⟩
    · intro all
      have clear := (first.clear_iff usable).mpr all.left
      exact ⟨clear, (second.clear_iff (between_usable clear)).mpr ((split clear _ _).mp all).2⟩
  typeKeys clear := by
    obtain ⟨clear, clear'⟩ := clear_append.mp clear
    rw [second.typeKeys clear', first.typeKeys clear, List.append_assoc]
  constantKeys clear := by
    obtain ⟨clear, clear'⟩ := clear_append.mp clear
    rw [second.constantKeys clear', first.constantKeys clear, List.append_assoc]

/-- What cannot be used is refused. -/
theorem refused {problem : Diagnostic} (error : problem.isError = true)
    (blocked : ¬ before.Usable types constants) : before.Admits types constants [problem] after where
  clear_iff _ := iff_of_false (not_clear_of_mem List.mem_cons_self error) blocked
  typeKeys clear := absurd clear (not_clear_of_mem List.mem_cons_self error)
  constantKeys clear := absurd clear (not_clear_of_mem List.mem_cons_self error)

end Admits

theorem isError_nameTaken (header : Header) (earlier? : Option Location) :
    (nameTaken header earlier?).isError = true :=
  Diagnostic.isError_of_kind (kind_nameTaken header earlier?) rfl

theorem not_nodup_append_singleton {α : Type} {list : List α} {a : α} (used : a ∈ list) :
    ¬ (list ++ [a]).Nodup :=
  fun nodup => List.disjoint_of_nodup_append nodup used (List.mem_singleton_self a)

variable (files : FileTable) (file : FileId)

/-- A type is accepted if its name is no keyword and is not in use. -/
theorem admits_declareType {δ : Type} {names : Names} (wellFormed : names.graph.WellFormed)
    (header : Header) (kind : UserTypeKind) (decl : δ) :
    names.Admits [(file, header.name)] []
      (Declared.problem? ⟨file, decl, (declareType files file header kind names).1⟩).toList
      (declareType files file header kind names).2 := by
  rcases declareType_cases wellFormed files file header kind with
    ⟨problem, refused, ⟨rfl, keyword⟩ | ⟨⟨earlier?, rfl⟩, taken⟩⟩ |
    ⟨id, after, declared, no_keyword, unused, adds, constants⟩
  · rw [refused]
    refine .refused rfl fun usable => ?_
    rw [usable.free _ (List.mem_singleton_self _)] at keyword
    cases keyword
  · rw [refused]
    exact .refused (isError_nameTaken header earlier?) fun usable =>
      not_nodup_append_singleton (TypeGraph.isSome_lookup_iff.mp taken) usable.typesApart
  · rw [declared]
    refine ⟨fun usable => iff_of_true clear_nil
      ⟨?_, List.forall_mem_singleton.mpr no_keyword, usable.constantsApart⟩, fun _ => ?_, fun _ => ?_⟩
    · have nodup := usable.typesApart
      rw [List.append_nil] at nodup
      exact nodup.append (List.nodup_singleton _)
        (List.disjoint_singleton.mpr (TypeGraph.lookup_eq_none_iff.mp unused))
    · rw [typeKeys, adds.users, List.map_append]
      rfl
    · rw [constantKeys, constants, List.append_nil]
      rfl

theorem admits_declareTypes {δ : Type} {names : Names} (wellFormed : names.graph.WellFormed)
    (header : δ → Header) (kind : δ → UserTypeKind) (decls : List δ) :
    names.Admits (decls.map fun decl => (file, (header decl).name)) []
      ((declareTypes files file header kind decls names).1.filterMap (·.problem?))
      (declareTypes files file header kind decls names).2 := by
  induction decls generalizing names with
  | nil => exact .none rfl rfl
  | cons decl decls induction =>
      have adds := adds_declareTypes files file header kind [decl] wellFormed
      have both := (admits_declareType files file wellFormed (header decl) (kind decl) decl).trans
        (induction adds.wellFormed)
      rw [declareTypes_cons, List.filterMap_cons]
      generalize Declared.problem? _ = problem? at both ⊢
      cases problem? with
      | none => exact both
      | some problem => exact both

/-- A constant is accepted if its name is not in use. -/
theorem admits_declareConstant (decl : ConstantDecl) (names : Names) :
    names.Admits [] [(file, decl.header.name)]
      (Declared.problem? ⟨file, decl, (declareConstant file decl names).1⟩).toList
      (declareConstant file decl names).2 := by
  rcases declareConstant_cases file decl names with ⟨earlier?, refused, used⟩ | ⟨id, declared, unused⟩
  · rw [refused]
    exact .refused (isError_nameTaken decl.header earlier?) fun usable =>
      not_nodup_append_singleton used usable.constantsApart
  · rw [declared]
    refine ⟨fun usable => iff_of_true clear_nil ⟨usable.typesApart, List.forall_mem_nil _, ?_⟩,
      fun _ => (List.append_nil _).symm, fun _ => List.map_append⟩
    have nodup := usable.constantsApart
    rw [List.append_nil] at nodup
    exact nodup.append (List.nodup_singleton _) (List.disjoint_singleton.mpr unused)

theorem admits_declareConstants (decls : List ConstantDecl) (names : Names) :
    names.Admits [] (decls.map fun decl => (file, decl.header.name))
      ((declareConstants file decls names).1.filterMap (·.problem?))
      (declareConstants file decls names).2 := by
  induction decls generalizing names with
  | nil => exact .none rfl rfl
  | cons decl decls induction =>
      have both := (admits_declareConstant file decl names).trans (induction _)
      rw [declareConstants_cons, List.filterMap_cons]
      generalize Declared.problem? _ = problem? at both ⊢
      cases problem? with
      | none => exact both
      | some problem => exact both

end Names

/-- The names of the constants that a file declares. -/
def FileTree.constantNames (tree : FileTree) : List String :=
  tree.constants.map (·.header.name)

namespace Names

theorem admits_declareFile (files : FileTable) (file : FileId) {names : Names}
    (wellFormed : names.graph.WellFormed) :
    names.Admits ((files.tree file).typeNames.map (file, ·))
      ((files.tree file).constantNames.map (file, ·)) (declareFile files file names).1.problems
      (declareFile files file names).2 := by
  have typedefs := adds_declareTypedefs files file wellFormed
  have enums := adds_declareEnums files file wellFormed
  have structs := adds_declareStructs files file wellFormed
  have at_typedefs := admits_declareTypes files file wellFormed (·.header) (fun _ => .typedef)
    (files.tree file).typedefs
  have at_enums := admits_declareTypes files file typedefs.wellFormed (·.header) (fun _ => .enum)
    (files.tree file).enums
  have at_structs := admits_declareTypes files file enums.wellFormed (·.header)
    (fun struct => .struct struct.kind) (files.tree file).structs
  have at_services := admits_declareTypes files file structs.wellFormed (·.header)
    (fun _ => .service) (files.tree file).services
  have at_constants := admits_declareConstants file (files.tree file).constants
    (declareServices files file names).2
  have all := at_typedefs.trans (at_enums.trans (at_structs.trans (at_services.trans at_constants)))
  have types : (files.tree file).typeNames.map (file, ·) =
      (files.tree file).typedefs.map (fun decl => (file, decl.header.name)) ++
        ((files.tree file).enums.map (fun decl => (file, decl.header.name)) ++
          ((files.tree file).structs.map (fun decl => (file, decl.header.name)) ++
            ((files.tree file).services.map (fun decl => (file, decl.header.name)) ++ []))) := by
    simp only [FileTree.typeNames, List.map_append, List.map_map, List.append_assoc, List.append_nil]
    rfl
  have constants : (files.tree file).constantNames.map (file, ·) =
      (files.tree file).constants.map fun decl => (file, decl.header.name) := by
    rw [FileTree.constantNames, List.map_map]
    rfl
  have problems : (declareFile files file names).1.problems =
      (declareTypedefs files file names).1.filterMap (·.problem?) ++
        ((declareEnums files file names).1.filterMap (·.problem?) ++
          ((declareStructs files file names).1.filterMap (·.problem?) ++
            ((declareServices files file names).1.filterMap (·.problem?) ++
              (declareConstants file (files.tree file).constants
                (declareServices files file names).2).1.filterMap (·.problem?)))) := by
    rw [FileDeclarations.problems, declareFile_apply]
    simp only [List.append_assoc]
  rw [types, constants, problems]
  exact all

theorem admits_declareFiles (files : FileTable) (order : List FileId) {names : Names}
    (wellFormed : names.graph.WellFormed) :
    names.Admits (files.written order (·.typeNames)) (files.written order (·.constantNames))
      ((declareFiles files order names).1.flatMap (·.problems))
      (declareFiles files order names).2 := by
  induction order generalizing names with
  | nil => exact .none rfl rfl
  | cons file order induction =>
      rw [declareFiles, mapM_cons_apply, List.flatMap_cons, FileTable.written, List.flatMap_cons,
        FileTable.written, List.flatMap_cons]
      exact (admits_declareFile files file wellFormed).trans
        (induction (adds_declareFile files file wellFormed).wellFormed)

end Names

namespace FileTable

/-- All declarations of some files are accepted just where all their names can be used. -/
theorem clear_declared_iff (files : FileTable) (order : List FileId) :
    Clear ((files.declared order).1.flatMap (·.problems)) ↔
      Names.initial.Usable (files.written order (·.typeNames))
        (files.written order (·.constantNames)) :=
  (Names.admits_declareFiles files order TypeGraph.wellFormed_initial).clear_iff
    ⟨List.nodup_nil, List.forall_mem_nil _, List.nodup_nil⟩

end FileTable
end IdlSchema
