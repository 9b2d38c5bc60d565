import IdlSchema.Files.Closure
import IdlSchema.Proofs.Files.FileTables

/-!
# Walks along includes

A resolver that is a function of what it is asked has no effects, so following includes is a
function on what is known, together with the questions that were asked.  The function is spelled out
here as one step for each directive; loading files comes to the same.
-/

namespace IdlSchema

/-- What a resolver without effects finds for an include as it is written in a file. -/
abbrev Finder := String → String → Option ResolvedInclude

/-- What is known while includes are followed, and what the resolver was asked. -/
structure IncludeWalk extends LoadState where
  asked : List (String × String)

namespace IncludeWalk

variable (find : Finder)

/-- Nothing is known and nothing was asked. -/
def start : IncludeWalk :=
  { LoadState.initial with asked := [] }

/-- Takes over what is known of the files. -/
def withFiles (walk : IncludeWalk) (files : FileTable) : IncludeWalk :=
  { walk with files }

/-- Asks for the file that a directive means; the file is added where the resolver finds one. -/
def ask (source : FileId) (directive : IncludeDecl) (walk : IncludeWalk) :
    Option FileId × IncludeWalk :=
  let includer := walk.files.path source
  let asked := walk.asked ++ [(includer, directive.path)]
  match find includer directive.path with
  | some found =>
      let (id, files) := FileTable.add found.path found.tree walk.files
      (some id, { walk with files, asked })
  | none => (walk.files.lookup directive.path, { walk with asked })

/-- The problem of a directive that means no file. -/
def missing (directive : IncludeDecl) : Diagnostic :=
  .detailed .unresolvedInclude directive.location directive.path

/-- Keeps what a directive was found to mean, and reports it if it means nothing. -/
def keep (source : FileId) (directive : IncludeDecl) (answer : Option FileId)
    (walk : IncludeWalk) : IncludeWalk :=
  { walk with
    answers := ((source, directive.path), answer) :: walk.answers
    reported := walk.reported ++ if answer.isNone then [missing directive] else [] }

/-- What a directive means, which is asked for just once. -/
def resolve (source : FileId) (directive : IncludeDecl) (walk : IncludeWalk) :
    Option FileId × IncludeWalk :=
  match walk.answers.lookup (source, directive.path) with
  | some answer => (answer, walk)
  | none =>
      let (answer, walk) := walk.ask find source directive
      (answer, walk.keep source directive answer)

/-- Follows one directive of a file, with a way to go on at the file that it means. -/
def follow (onwards : FileId → IncludeWalk → IncludeWalk) (file : FileId) (walk : IncludeWalk)
    (directive : IncludeDecl) : IncludeWalk :=
  match walk.resolve find file directive with
  | (some target, walk) =>
      onwards target (walk.withFiles (walk.files.addInclude file target))
  | (none, walk) => walk

/-- Marks a file as visited. -/
def enter (file : FileId) (walk : IncludeWalk) : IncludeWalk :=
  { walk with visited := file :: walk.visited }

/-- Refuses the directives of a file. -/
def refuse (limit : Nat) (file : FileId) (walk : IncludeWalk) : IncludeWalk :=
  { walk with
    reported := walk.reported ++ (walk.files.directives file).map (Loading.tooDeep limit) }

/-- Visits a file and what it includes. -/
def visit (limit : Nat) : Nat → FileId → IncludeWalk → IncludeWalk
  | 0, file, walk => if file ∈ walk.visited then walk else (walk.enter file).refuse limit file
  | remaining + 1, file, walk =>
      if file ∈ walk.visited then walk
      else
        (walk.files.directives file).foldl (follow find (visit limit remaining) file)
          (walk.enter file)

/-- The places of some roots, which are added unless they are there. -/
def addRoots (roots : List FileTree) : StateM FileTable (List FileId) :=
  roots.mapM fun root => FileTable.add root.path root

/-- Adds some roots and visits each of them. -/
def load (limit : Nat) (roots : List FileTree) : IncludeWalk :=
  let (ids, files) := addRoots roots .empty
  ids.foldl (fun walk id => walk.visit find limit limit id) (start.withFiles files)

/-! ## The same walk with effects -/

/-- What a step of loading comes to when the questions are kept in a list. -/
def carry {α : Type} (step : Loading (StateT (List (String × String)) Id) α) (walk : IncludeWalk) :
    α × IncludeWalk :=
  let result := Id.run ((step.run walk.toLoadState).run walk.asked)
  (result.1.1, { toLoadState := result.1.2, asked := result.2 })

section

variable {α β : Type} (walk : IncludeWalk)

theorem carry_bind (step : Loading (StateT (List (String × String)) Id) α)
    (next : α → Loading (StateT (List (String × String)) Id) β) :
    carry (step >>= next) walk = carry (next (carry step walk).1) (carry step walk).2 :=
  rfl

theorem carry_forM (list : List α)
    (step : α → Loading (StateT (List (String × String)) Id) PUnit) :
    carry (list.forM step) walk =
      ((), list.foldl (fun walk a => (carry (step a) walk).2) walk) := by
  induction list generalizing walk with
  | nil => rfl
  | cons a list induction => exact induction (carry (step a) walk).2

theorem carry_enter (file : FileId) :
    carry (Loading.enter file) walk =
      if file ∈ walk.visited then (false, walk) else (true, walk.enter file) := by
  by_cases visited : file ∈ walk.visited
  · rw [if_pos visited]
    simp [carry, Loading.enter, visited]
  · rw [if_neg visited]
    simp [carry, Loading.enter, visited, enter]

end

/-- The resolver of a function, with a list of what it is asked. -/
abbrev recording : IncludeResolver (StateT (List (String × String)) Id) :=
  (IncludeResolver.ofFunction find).recorded

theorem carry_resolveAnew (source : FileId) (directive : IncludeDecl) (walk : IncludeWalk) :
    carry (Loading.resolveAnew (recording find) source directive) walk =
      walk.ask find source directive := by
  rw [Loading.resolveAnew, carry_bind, carry_bind, ask]
  change carry (match find (walk.files.path source) directive.path with
    | some found => some <$> Loading.addFile found.path found.tree
    | none => do return (← get).files.lookup directive.path)
    { walk with asked := walk.asked ++ [(walk.files.path source, directive.path)] } = _
  cases find (walk.files.path source) directive.path with
  | some found => rfl
  | none => rfl

theorem carry_resolve (source : FileId) (directive : IncludeDecl) (walk : IncludeWalk) :
    carry (Loading.resolve (recording find) source directive) walk =
      walk.resolve find source directive := by
  rw [Loading.resolve, carry_bind, resolve]
  change carry (match walk.answers.lookup (source, directive.path) with
    | some answer => pure answer
    | none => _) walk = _
  cases walk.answers.lookup (source, directive.path) with
  | some answer => rfl
  | none =>
      dsimp only
      rw [carry_bind, carry_resolveAnew]
      obtain ⟨answer, after⟩ := walk.ask find source directive
      cases answer with
      | some id => simp [keep, carry]
      | none => rfl

theorem foldl_report (limit : Nat) (directives : List IncludeDecl) (walk : IncludeWalk) :
    directives.foldl
        (fun walk directive => (carry (Loading.report (Loading.tooDeep limit directive)) walk).2)
        walk =
      { walk with reported := walk.reported ++ directives.map (Loading.tooDeep limit) } := by
  induction directives generalizing walk with
  | nil => simp
  | cons directive directives induction =>
      rw [List.foldl_cons, induction]
      simp [carry, Loading.report]

theorem carry_visit (limit remaining : Nat) (file : FileId) (walk : IncludeWalk) :
    carry (Loading.visit (recording find) limit remaining file) walk =
      ((), walk.visit find limit remaining file) := by
  induction remaining generalizing file walk with
  | zero =>
      rw [Loading.visit, carry_bind, carry_enter, visit]
      by_cases visited : file ∈ walk.visited
      · simp only [if_pos visited]
        rfl
      · simp only [if_neg visited, if_true]
        rw [carry_bind]
        change carry ((walk.files.directives file).forM fun directive => _) (walk.enter file) = _
        rw [carry_forM]
        exact congrArg (Prod.mk ()) (foldl_report limit (walk.files.directives file) _)
  | succ remaining induction =>
      rw [Loading.visit, carry_bind, carry_enter, visit]
      by_cases visited : file ∈ walk.visited
      · simp only [if_pos visited]
        rfl
      · simp only [if_neg visited, if_true]
        rw [carry_bind]
        change carry ((walk.files.directives file).forM fun directive => _) (walk.enter file) = _
        rw [carry_forM]
        refine congrArg (Prod.mk ()) (congrArg (fun step => List.foldl step _ _) ?_)
        funext walk directive
        rw [carry_bind, carry_resolve, follow]
        obtain ⟨answer, after⟩ := walk.resolve find file directive
        cases answer with
        | some target =>
            dsimp only
            rw [carry_bind]
            exact congrArg Prod.snd (induction target _)
        | none => rfl

theorem carry_addRoots (roots : List FileTree) (walk : IncludeWalk) :
    carry (roots.mapM fun root => Loading.addFile root.path root) walk =
      ((addRoots roots walk.files).1, walk.withFiles (addRoots roots walk.files).2) := by
  induction roots generalizing walk with
  | nil => rfl
  | cons root roots induction =>
      rw [List.mapM_cons, carry_bind, carry_bind, addRoots, mapM_cons_apply]
      have added : carry (Loading.addFile root.path root) walk =
          ((FileTable.add root.path root walk.files).1,
            walk.withFiles (FileTable.add root.path root walk.files).2) := rfl
      rw [added, induction]
      rfl

theorem carry_load (limit : Nat) (roots : List FileTree) :
    carry (Loading.load (recording find) limit roots) start = ((), load find limit roots) := by
  rw [Loading.load, carry_bind, carry_addRoots, carry_forM, load]
  simp only [carry_visit]
  rfl

/-- Loading with a resolver of a function comes to the walk. -/
theorem load_recording (limit : Nat) (roots : List FileTree) :
    (FileTable.load (recording find) limit roots).run [] =
      (((load find limit roots).files, (load find limit roots).reported),
        (load find limit roots).asked) := by
  have state := congrArg (fun result => result.2) (carry_load find limit roots)
  rw [FileTable.load]
  dsimp only at state
  rw [← state]
  rfl

/-! ## Roots -/

/-- Some roots were added to a table. -/
structure RootsAdded (before : FileTable) (roots : List FileTree)
    (result : List FileId × FileTable) : Prop where
  grows : before.Grows result.2
  nodup : before.paths.Nodup → result.2.paths.Nodup
  includes : ∀ id, result.2.includes id = before.includes id
  inside : ∀ id ∈ result.1, id.index < result.2.size
  places : List.Forall₂ (fun root id => result.2.path id = root.path) roots result.1
  fresh : ∀ id : FileId, id.index < result.2.size → id.index < before.size ∨ id ∈ result.1

theorem rootsAdded_addRoots (roots : List FileTree) (table : FileTable) :
    RootsAdded table roots (addRoots roots table) := by
  induction roots generalizing table with
  | nil =>
      exact ⟨.refl table, fun nodup => nodup, fun _ => rfl, fun _ => (List.not_mem_nil · |>.elim),
        .nil, fun _ => .inl⟩
  | cons root roots induction =>
      have added := table.added_add root.path root
      have others := induction (FileTable.add root.path root table).2
      rw [addRoots, mapM_cons_apply]
      have first_inside := others.grows.lt_size added.inside
      constructor
      case grows => exact added.grows.trans others.grows
      case nodup => exact others.nodup ∘ added.nodup
      case includes => exact fun id => (others.includes id).trans (added.includes id)
      case inside => exact List.forall_mem_cons.mpr ⟨first_inside, others.inside⟩
      case places =>
        exact .cons ((others.grows.path_eq added.inside).trans added.path_eq) others.places
      case fresh =>
        intro id inside
        rcases others.fresh id inside with old | new
        · refine (added.fresh id old).imp_right fun same => ?_
          rw [same]
          exact List.mem_cons_self
        · exact .inr (List.mem_cons_of_mem _ new)

end IncludeWalk
end IdlSchema
