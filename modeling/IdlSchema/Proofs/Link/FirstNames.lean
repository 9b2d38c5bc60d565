import IdlSchema.Proofs.Link.AcceptedNames
import IdlSchema.Proofs.Rules.Violations

/-!
# Declarations whose names come first

A declaration is accepted if no keyword has its name, no declaration of its file in front of it, and
none of a construct that is declared earlier.  All others are refused, each with a problem at its
name.  For a constant just the constants of its file count.
-/

namespace IdlSchema

section

variable {α : Type} (name : α → String) (taken : List String)

/-- Whether an element behind earlier ones has a name that is neither taken nor that of one of them. -/
def isFirst (entry : List α × α) : Bool :=
  !(taken ++ entry.1.map name).contains (name entry.2)

/-- The elements of a list behind earlier ones whose names are neither taken nor repeated. -/
def firstsFrom (earlier list : List α) : List α :=
  ((withEarlierFrom earlier list).filter (isFirst name taken)).map Prod.snd

/-- The elements of a list behind earlier ones whose names are taken or repeated. -/
def repeatsFrom (earlier list : List α) : List α :=
  ((withEarlierFrom earlier list).filter (!isFirst name taken ·)).map Prod.snd

/-- The elements whose names are neither taken nor repeated. -/
def firsts (list : List α) : List α :=
  firstsFrom name taken [] list

/-- The elements whose names are taken or repeated. -/
def repeats (list : List α) : List α :=
  repeatsFrom name taken [] list

variable {name taken}

theorem isFirst_iff {earlier : List α} {a : α} :
    isFirst name taken (earlier, a) = true ↔ name a ∉ taken ++ earlier.map name := by
  simp [isFirst]

theorem firstsFrom_cons (earlier : List α) (a : α) (rest : List α) :
    firstsFrom name taken earlier (a :: rest) =
      if isFirst name taken (earlier, a) then a :: firstsFrom name taken (earlier ++ [a]) rest
      else firstsFrom name taken (earlier ++ [a]) rest := by
  rw [firstsFrom, withEarlierFrom, List.filter_cons]
  split <;> rfl

theorem repeatsFrom_cons (earlier : List α) (a : α) (rest : List α) :
    repeatsFrom name taken earlier (a :: rest) =
      if isFirst name taken (earlier, a) then repeatsFrom name taken (earlier ++ [a]) rest
      else a :: repeatsFrom name taken (earlier ++ [a]) rest := by
  rw [repeatsFrom, withEarlierFrom, List.filter_cons]
  cases isFirst name taken (earlier, a) <;> rfl

end

namespace Builtin

/-- The keywords of all built-in types. -/
def keywords : List String :=
  all.map keyword

theorem isSome_ofKeyword?_iff {name : String} : (ofKeyword? name).isSome ↔ name ∈ keywords := by
  simp [ofKeyword?, keywords, List.find?_isSome]

end Builtin

namespace FileTree

variable (tree : FileTree)

/-- The names of typedefs and enums, which are declared before structs. -/
def aliasNames : List String :=
  tree.typedefs.map (·.header.name) ++ tree.enums.map (·.header.name)

/-- The typedefs with new names. -/
def keptTypedefs : List TypedefDecl :=
  firsts (·.header.name) Builtin.keywords tree.typedefs

/-- The enums with new names. -/
def keptEnums : List EnumDecl :=
  firsts (·.header.name) (Builtin.keywords ++ tree.typedefs.map (·.header.name)) tree.enums

/-- The structs, unions and exceptions with new names. -/
def keptStructs : List StructDecl :=
  firsts (·.header.name) (Builtin.keywords ++ tree.aliasNames) tree.structs

/-- The services with new names. -/
def keptServices : List ServiceDecl :=
  firsts (·.header.name)
    (Builtin.keywords ++ (tree.aliasNames ++ tree.structs.map (·.header.name))) tree.services

/-- The constants with new names. -/
def keptConstants : List ConstantDecl :=
  firsts (·.header.name) [] tree.constants

/-- The headers of all other declarations, in the order in which names are declared. -/
def repeatedHeaders : List Header :=
  (repeats (·.header.name) Builtin.keywords tree.typedefs).map (·.header) ++
    (repeats (·.header.name) (Builtin.keywords ++ tree.typedefs.map (·.header.name))
      tree.enums).map (·.header) ++
    (repeats (·.header.name) (Builtin.keywords ++ tree.aliasNames) tree.structs).map (·.header) ++
    (repeats (·.header.name)
      (Builtin.keywords ++ (tree.aliasNames ++ tree.structs.map (·.header.name)))
      tree.services).map (·.header) ++
    (repeats (·.header.name) [] tree.constants).map (·.header)

end FileTree

/-- Where a problem is and what it says. -/
def Diagnostic.placed (problem : Diagnostic) : Location × String :=
  (problem.location, problem.message)

/-- What is said of a declaration whose name is taken, and where. -/
def Header.duplicate (header : Header) : Location × String :=
  (header.location, DiagnosticKind.duplicateSymbol.message (some header.name))

namespace Declared

variable {δ ι : Type}

/-- Declarations with new names are accepted, and the others are refused with a problem at each. -/
structure TakesFirsts (file : FileId) (header : δ → Header) (kept repeated : List δ)
    (attempts : List (Declared δ ι)) : Prop where
  accepted : (attempts.filterMap (·.accepted?)).map (fun accepted => (accepted.1, accepted.2.1)) =
    kept.map (file, ·)
  refused : (attempts.filterMap (·.problem?)).map (·.placed) =
    repeated.map fun decl => (header decl).duplicate

namespace TakesFirsts

variable {file : FileId} {header : δ → Header} {kept repeated : List δ}
  {attempts : List (Declared δ ι)}

theorem cons_accepted (firsts : TakesFirsts file header kept repeated attempts) (decl : δ) (id : ι) :
    TakesFirsts file header (decl :: kept) repeated (⟨file, decl, .ok id⟩ :: attempts) where
  accepted := congrArg ((file, decl) :: ·) firsts.accepted
  refused := firsts.refused

theorem cons_refused (firsts : TakesFirsts file header kept repeated attempts) {decl : δ}
    {problem : Diagnostic} (placed : problem.placed = (header decl).duplicate) :
    TakesFirsts file header kept (decl :: repeated) (⟨file, decl, .error problem⟩ :: attempts) where
  accepted := firsts.accepted
  refused := congrArg₂ List.cons placed firsts.refused

theorem placed_problems (firsts : TakesFirsts file header kept repeated attempts) :
    (attempts.filterMap (·.problem?)).map (·.placed) =
      (repeated.map header).map (·.duplicate) := by
  rw [firsts.refused, List.map_map]
  rfl

end TakesFirsts
end Declared

namespace Names

/-! ## Taking names -/

/-- A name cannot be used for a type of a file any more. -/
def TypeTaken (names : Names) (file : FileId) (name : String) : Prop :=
  (Builtin.ofKeyword? name).isSome ∨ (file, name) ∈ names.typeKeys

/-- A name cannot be used for a constant of a file any more. -/
def ConstantTaken (names : Names) (file : FileId) (name : String) : Prop :=
  (file, name) ∈ names.constantKeys

/-- A name is refused if it is taken; it is taken from then on. -/
structure Takes {ι : Type} (taken : Names → FileId → String → Prop) (file : FileId)
    (header : Header) (before : Names) (result : Except Diagnostic ι × Names) : Prop where
  wellFormed : result.2.graph.WellFormed
  refused : taken before file header.name →
    ∃ problem, result.1 = .error problem ∧ problem.placed = header.duplicate
  accepted : ¬ taken before file header.name → ∃ id, result.1 = .ok id
  taken_iff : ∀ other name, taken result.2 other name ↔
    taken before other name ∨ (other = file ∧ name = header.name)

theorem placed_nameTaken (header : Header) (earlier? : Option Location) :
    (nameTaken header earlier?).placed = header.duplicate := by
  cases earlier? <;> rfl

/-- To refuse a name that was taken before adds nothing to the names in use. -/
theorem Takes.of_taken {ι : Type} {taken : Names → FileId → String → Prop} {file : FileId}
    {header : Header} {names : Names} {problem : Diagnostic} (wellFormed : names.graph.WellFormed)
    (used : taken names file header.name) (placed : problem.placed = header.duplicate) :
    Takes (ι := ι) taken file header names (.error problem, names) where
  wellFormed := wellFormed
  refused _ := ⟨problem, rfl, placed⟩
  accepted free := absurd used free
  taken_iff other name := by
    refine ⟨.inl, ?_⟩
    rintro (earlier | ⟨rfl, rfl⟩)
    · exact earlier
    · exact used

theorem takes_declareType {names : Names} (wellFormed : names.graph.WellFormed) (files : FileTable)
    (file : FileId) (header : Header) (kind : UserTypeKind) :
    Takes TypeTaken file header names (declareType files file header kind names) := by
  rcases declareType_cases wellFormed files file header kind with
    ⟨problem, refused, because⟩ | ⟨id, after, declared, no_keyword, unused, adds, _⟩
  · rw [refused]
    rcases because with ⟨rfl, keyword⟩ | ⟨⟨earlier?, rfl⟩, taken⟩
    · exact .of_taken wellFormed (.inl keyword) rfl
    · exact .of_taken wellFormed (.inr (TypeGraph.isSome_lookup_iff.mp taken))
        (placed_nameTaken header earlier?)
  · rw [declared]
    have free : ¬ names.TypeTaken file header.name := by
      rintro (keyword | used)
      · rw [no_keyword] at keyword
        cases keyword
      · exact TypeGraph.lookup_eq_none_iff.mp unused used
    refine ⟨adds.wellFormed, fun taken => absurd taken free, fun _ => ⟨id, rfl⟩,
      fun other name => ?_⟩
    simp only [TypeTaken, typeKeys, adds.users, List.map_append, List.map_singleton,
      List.mem_append, List.mem_singleton, UserType.key, UserType.declared, Prod.mk.injEq, or_assoc]

theorem takes_declareConstant {names : Names} (wellFormed : names.graph.WellFormed)
    (file : FileId) (decl : ConstantDecl) :
    Takes ConstantTaken file decl.header names (declareConstant file decl names) := by
  rcases declareConstant_cases file decl names with ⟨earlier?, refused, used⟩ | ⟨id, declared, unused⟩
  · rw [refused]
    exact .of_taken wellFormed used (placed_nameTaken decl.header earlier?)
  · rw [declared]
    refine ⟨wellFormed, fun taken => absurd taken unused, fun _ => ⟨id, rfl⟩, fun other name => ?_⟩
    simp only [ConstantTaken, constantKeys, List.map_append, List.map_singleton, List.mem_append,
      List.mem_singleton, constantKey, Prod.mk.injEq]

/-- What declaring some names behind those of earlier declarations does. -/
structure TakesAll {δ ι : Type} (taken : Names → FileId → String → Prop) (file : FileId)
    (header : δ → Header) (before : Names) (used : List String) (earlier decls : List δ)
    (result : List (Declared δ ι) × Names) : Prop where
  wellFormed : result.2.graph.WellFormed
  firsts : Declared.TakesFirsts file header
    (firstsFrom (fun decl => (header decl).name) used earlier decls)
    (repeatsFrom (fun decl => (header decl).name) used earlier decls) result.1
  taken_iff : ∀ other name, taken result.2 other name ↔
    taken before other name ∨ (other = file ∧ name ∈ decls.map fun decl => (header decl).name)

theorem takesAll_mapM {δ ι : Type} {taken : Names → FileId → String → Prop} {file : FileId}
    {header : δ → Header} {attempt : δ → StateM Names (Except Diagnostic ι)}
    (each : ∀ decl (names : Names), names.graph.WellFormed →
      Takes taken file (header decl) names (attempt decl names))
    {names : Names} (wellFormed : names.graph.WellFormed) {used : List String} (earlier : List δ)
    (decls : List δ) (used_iff : ∀ name, taken names file name ↔
      name ∈ used ++ earlier.map fun decl => (header decl).name) :
    TakesAll taken file header names used earlier decls
      ((decls.mapM fun decl => do
        return { file, decl, result := ← attempt decl } : StateM Names (List (Declared δ ι)))
        names) := by
  induction decls generalizing earlier names with
  | nil => exact ⟨wellFormed, ⟨rfl, rfl⟩, fun _ _ => ⟨.inl, by rintro (known | ⟨_, ⟨⟩⟩); exact known⟩⟩
  | cons decl decls induction =>
      have takes := each decl names wellFormed
      have step : (do return { file, decl, result := ← attempt decl } :
          StateM Names (Declared δ ι)) names =
          (⟨file, decl, (attempt decl names).1⟩, (attempt decl names).2) := rfl
      have rest := induction takes.wellFormed (earlier ++ [decl]) fun name => by
        rw [takes.taken_iff, used_iff]
        simp only [List.map_append, List.map_singleton, List.mem_append, List.mem_singleton, true_and,
          or_assoc]
      rw [mapM_cons_apply, step]
      refine ⟨rest.wellFormed, ?_, fun other name => ?_⟩
      · by_cases known : taken names file (header decl).name
        · obtain ⟨problem, refused, placed⟩ := takes.refused known
          have later : ¬ isFirst (fun decl => (header decl).name) used (earlier, decl) = true := by
            rw [isFirst_iff, not_not, ← used_iff]
            exact known
          rw [firstsFrom_cons, repeatsFrom_cons, if_neg later, if_neg later, refused]
          exact rest.firsts.cons_refused placed
        · obtain ⟨id, accepted⟩ := takes.accepted known
          have first : isFirst (fun decl => (header decl).name) used (earlier, decl) = true := by
            rw [isFirst_iff, ← used_iff]
            exact known
          rw [firstsFrom_cons, repeatsFrom_cons, if_pos first, if_pos first, accepted]
          exact rest.firsts.cons_accepted decl id
      · rw [rest.taken_iff, takes.taken_iff]
        simp only [List.map_cons, List.mem_cons, or_assoc, and_or_left]

theorem takesAll_declareTypes {δ : Type} {names : Names} (wellFormed : names.graph.WellFormed)
    (files : FileTable) (file : FileId) (header : δ → Header) (kind : δ → UserTypeKind)
    (decls : List δ) {used : List String} (used_iff : ∀ name, names.TypeTaken file name ↔ name ∈ used) :
    TakesAll TypeTaken file header names used [] decls
      (declareTypes files file header kind decls names) :=
  takesAll_mapM (fun decl _ wellFormed => takes_declareType wellFormed files file _ (kind decl))
    wellFormed [] decls (by simpa using used_iff)

end Names

namespace FileDeclarations

/-- Of the declarations of a file those with new names are accepted, and the others are refused. -/
structure TakesFirsts (declarations : FileDeclarations) (file : FileId) (tree : FileTree) :
    Prop where
  typedefs : ∃ repeated, Declared.TakesFirsts file (·.header) tree.keptTypedefs repeated
    declarations.typedefs
  enums : ∃ repeated, Declared.TakesFirsts file (·.header) tree.keptEnums repeated
    declarations.enums
  structs : ∃ repeated, Declared.TakesFirsts file (·.header) tree.keptStructs repeated
    declarations.structs
  services : ∃ repeated, Declared.TakesFirsts file (·.header) tree.keptServices repeated
    declarations.services
  constants : ∃ repeated, Declared.TakesFirsts file (·.header) tree.keptConstants repeated
    declarations.constants
  refused : declarations.problems.map (·.placed) = tree.repeatedHeaders.map (·.duplicate)

end FileDeclarations

namespace Names

/-- Nothing of a file has been declared. -/
structure Untouched (names : Names) (file : FileId) : Prop where
  types : ∀ name, names.TypeTaken file name ↔ name ∈ Builtin.keywords
  constants : ∀ name, ¬ names.ConstantTaken file name

theorem takesFirsts_declareFile {names : Names} (wellFormed : names.graph.WellFormed)
    (files : FileTable) (file : FileId) (untouched : names.Untouched file) :
    (declareFile files file names).1.TakesFirsts file (files.tree file) ∧
      (declareFile files file names).2.graph.WellFormed ∧
      ∀ other ≠ file, names.Untouched other → (declareFile files file names).2.Untouched other := by
  have typedefs : TakesAll TypeTaken file (·.header) names Builtin.keywords []
      (files.tree file).typedefs (declareTypedefs files file names) :=
    takesAll_declareTypes wellFormed files file _ _ _ untouched.types
  have enums : TakesAll TypeTaken file (·.header) (declareTypedefs files file names).2
      (Builtin.keywords ++ (files.tree file).typedefs.map (·.header.name)) []
      (files.tree file).enums (declareEnums files file names) := by
    refine takesAll_declareTypes typedefs.wellFormed files file _ _ _ fun name => ?_
    rw [typedefs.taken_iff, untouched.types, List.mem_append]
    simp only [true_and]
  have structs : TakesAll TypeTaken file (·.header) (declareEnums files file names).2
      (Builtin.keywords ++ (files.tree file).aliasNames) [] (files.tree file).structs
      (declareStructs files file names) := by
    refine takesAll_declareTypes enums.wellFormed files file _ _ _ fun name => ?_
    rw [enums.taken_iff, typedefs.taken_iff, untouched.types]
    simp only [FileTree.aliasNames, List.mem_append, true_and, or_assoc]
  have services : TakesAll TypeTaken file (·.header) (declareStructs files file names).2
      (Builtin.keywords ++
        ((files.tree file).aliasNames ++ (files.tree file).structs.map (·.header.name))) []
      (files.tree file).services (declareServices files file names) := by
    refine takesAll_declareTypes structs.wellFormed files file _ _ _ fun name => ?_
    rw [structs.taken_iff, enums.taken_iff, typedefs.taken_iff, untouched.types]
    simp only [FileTree.aliasNames, List.mem_append, true_and, or_assoc]
  have same_constants : (declareServices files file names).2.constantKeys = names.constantKeys := by
    rw [constantKeys, constants_declareServices]
    rfl
  have constants : TakesAll ConstantTaken file (·.header) (declareServices files file names).2 [] []
      (files.tree file).constants (declareConstants file (files.tree file).constants
        (declareServices files file names).2) := by
    refine takesAll_mapM (fun decl _ wellFormed => takes_declareConstant wellFormed file decl)
      services.wellFormed [] _ fun name => ?_
    rw [ConstantTaken, same_constants]
    exact iff_of_false (untouched.constants name) List.not_mem_nil
  have same_graph := graph_declareConstants file (files.tree file).constants
    (declareServices files file names).2
  rw [declareFile_apply]
  refine ⟨⟨⟨_, typedefs.firsts⟩, ⟨_, enums.firsts⟩, ⟨_, structs.firsts⟩, ⟨_, services.firsts⟩,
    ⟨_, constants.firsts⟩, ?_⟩, constants.wellFormed, fun other differ free => ⟨fun name => ?_,
    fun name => ?_⟩⟩
  · simp only [FileDeclarations.problems, FileTree.repeatedHeaders, repeats, List.map_append,
      typedefs.firsts.placed_problems, enums.firsts.placed_problems,
      structs.firsts.placed_problems, services.firsts.placed_problems,
      constants.firsts.placed_problems]
  · rw [← free.types, TypeTaken, typeKeys, same_graph]
    refine (services.taken_iff other name).trans ?_
    rw [structs.taken_iff, enums.taken_iff, typedefs.taken_iff]
    simp only [differ, false_and, or_false]
  · rw [constants.taken_iff, ConstantTaken, same_constants]
    simp only [differ, false_and, or_false]
    exact free.constants name

theorem takesFirsts_declareFiles (files : FileTable) {order : List FileId} (once : order.Nodup)
    {names : Names} (wellFormed : names.graph.WellFormed)
    (untouched : ∀ file ∈ order, names.Untouched file) :
    List.Forall₂ (fun file declarations => declarations.TakesFirsts file (files.tree file)) order
      (declareFiles files order names).1 := by
  induction order generalizing names with
  | nil => exact .nil
  | cons file order induction =>
      obtain ⟨fresh, once⟩ := List.nodup_cons.mp once
      obtain ⟨here, later⟩ := List.forall_mem_cons.mp untouched
      obtain ⟨first, wellFormed', keeps⟩ := takesFirsts_declareFile wellFormed files file here
      rw [declareFiles, mapM_cons_apply]
      refine .cons first (induction once wellFormed' fun other member => ?_)
      exact keeps other (fun same => fresh (same ▸ member)) (later other member)

end Names

namespace FileTable

open FileDeclarations

/-- Each file that is listed once has its first declarations accepted. -/
theorem takesFirsts_declared (files : FileTable) {order : List FileId} (once : order.Nodup) :
    List.Forall₂ (fun file declarations => declarations.TakesFirsts file (files.tree file)) order
      (files.declared order).1 := by
  refine Names.takesFirsts_declareFiles files once TypeGraph.wellFormed_initial fun file _ => ⟨?_, ?_⟩
  · intro name
    rw [Names.TypeTaken, Builtin.isSome_ofKeyword?_iff]
    exact or_iff_left List.not_mem_nil
  · exact fun name => List.not_mem_nil

/-- What is accepted of a construct is what the files have of it with new names, in order. -/
theorem accepted_eq_kept {δ ι : Type} {files : FileTable} {order : List FileId}
    {all : List FileDeclarations} {header : δ → Header} {kept : FileTree → List δ}
    {attempts : FileDeclarations → List (Declared δ ι)}
    (each : List.Forall₂ (fun file declarations => ∃ repeated, Declared.TakesFirsts file header
      (kept (files.tree file)) repeated (attempts declarations)) order all) :
    ((all.flatMap attempts).filterMap (·.accepted?)).map
      (fun accepted => (accepted.1, accepted.2.1)) = files.written order kept := by
  induction each with
  | nil => rfl
  | cons first _ induction =>
      obtain ⟨_, firsts⟩ := first
      rw [List.flatMap_cons, List.filterMap_append, List.map_append, written, List.flatMap_cons,
        firsts.accepted, induction]
      rfl

/-- All other declarations are refused, in order. -/
theorem placed_problems (files : FileTable) {order : List FileId} (once : order.Nodup) :
    ((files.declared order).1.flatMap (·.problems)).map (·.placed) =
      (files.written order (·.repeatedHeaders)).map fun (_, header) => header.duplicate := by
  have each := takesFirsts_declared files once
  generalize (files.declared order).1 = all at each
  clear once
  induction each with
  | nil => rfl
  | cons first _ induction =>
      rw [List.flatMap_cons, List.map_append, written, List.flatMap_cons, List.map_append,
        first.refused, induction, List.map_map]
      rfl

end FileTable
end IdlSchema
