import Mathlib.Logic.Relation
import IdlSchema.Proofs.Files.LoadedFiles
import IdlSchema.Proofs.SideBySide

/-!
# Loads with a resolver that has a state

A resolver with a state may answer a question in the light of earlier ones.  Whatever it does, a
load is a chain of few sorts of steps, and only one of them asks the resolver: a search for what a
directive of a file in the table means, made once for what the file writes.  A resolver that keeps a
list of its searches leads the load to the same files.
-/

namespace IdlSchema

/-- A question to a resolver: what it knew, what it was asked and what it found. -/
structure Search (σ : Type) where
  known : σ
  includer : String
  written : String
  found? : Option ResolvedInclude

/-- A resolver that keeps a list of its searches. -/
def IncludeResolver.noted {σ : Type} (resolver : IncludeResolver (StateM σ)) :
    IncludeResolver (StateM (σ × List (Search σ))) :=
  { resolve := fun includer written (known, searches) =>
      let (found?, after) := resolver.resolve includer written known
      (found?, after, searches ++ [{ known, includer, written, found? }]) }

namespace LoadState

variable (state : LoadState) (source : FileId) (directive : IncludeDecl)

/-- The file that a directive means after a search for it, and all files then. -/
def settle : Option ResolvedInclude → Option FileId × FileTable
  | some found =>
      let (id, files) := FileTable.add found.path found.tree state.files
      (some id, files)
  | none => (state.files.lookup directive.path, state.files)

/-- What is known after a search. -/
def answered (found? : Option ResolvedInclude) : LoadState :=
  let (target?, files) := state.settle directive found?
  { state with
    files
    answers := ((source, directive.path), target?) :: state.answers
    reported := state.reported ++ if target?.isNone then [IncludeWalk.missing directive] else [] }

theorem lookup_answered_self (found? : Option ResolvedInclude) :
    (state.answered source directive found?).answers.lookup (source, directive.path) =
      some (state.settle directive found?).1 :=
  List.lookup_cons_self

theorem lookup_answered_of_ne (found? : Option ResolvedInclude) {question : FileId × String}
    (differ : question ≠ (source, directive.path)) :
    (state.answered source directive found?).answers.lookup question =
      state.answers.lookup question := by
  rw [answered, List.lookup_cons, beq_false_of_ne differ]

end LoadState

variable {σ α β : Type}

/-- What a single step of a load does to what is known, also to its resolver. -/
inductive LoadStep (resolver : IncludeResolver (StateM σ)) :
    LoadState × σ → LoadState × σ → Prop
  | enter {state known} (file : FileId) :
      LoadStep resolver (state, known) ({ state with visited := file :: state.visited }, known)
  | report {state known} (diagnostic : Diagnostic) :
      LoadStep resolver (state, known)
        ({ state with reported := state.reported ++ [diagnostic] }, known)
  | link {state known} (source target : FileId) :
      LoadStep resolver (state, known)
        ({ state with files := state.files.addInclude source target }, known)
  | search {state known source directive} : directive ∈ state.files.directives source →
      state.answers.lookup (source, directive.path) = none →
      LoadStep resolver (state, known)
        (state.answered source directive
            (resolver.resolve (state.files.path source) directive.path known).1,
          (resolver.resolve (state.files.path source) directive.path known).2)

/-- One thing known is reached from another by steps of a load. -/
abbrev LoadRun (resolver : IncludeResolver (StateM σ)) : LoadState × σ → LoadState × σ → Prop :=
  Relation.ReflTransGen (LoadStep resolver)

namespace LoadStep

variable {resolver : IncludeResolver (StateM σ)} {before after : LoadState × σ}

/-- A step loses nothing that is known of a file. -/
theorem grows (step : LoadStep resolver before after) : before.1.files.Grows after.1.files := by
  cases step with
  | enter | report => exact .refl _
  | link source target => exact FileTable.grows_addInclude _ source target
  | @search state known source directive _ _ =>
      rw [LoadState.answered]
      cases (resolver.resolve (state.files.path source) directive.path known).1 with
      | some found => exact (FileTable.added_add state.files found.path found.tree).grows
      | none => exact .refl _

end LoadStep

theorem LoadRun.grows {resolver : IncludeResolver (StateM σ)} {before after : LoadState × σ}
    (run : LoadRun resolver before after) : before.1.files.Grows after.1.files := by
  induction run with
  | refl => exact .refl _
  | tail _ step induction => exact induction.trans step.grows

namespace Loading

/-! ## Loads as changes of all that is known -/

/-- A load as a change of what is known, also to the resolver. -/
def whole (action : Loading (StateM σ) α) : StateM (LoadState × σ) α :=
  fun (state, known) =>
    let ((a, state), known) := Id.run ((action.run state).run known)
    (a, state, known)

theorem whole_bind (action : Loading (StateM σ) α) (next : α → Loading (StateM σ) β) :
    (action >>= next).whole = action.whole >>= fun a => (next a).whole :=
  rfl

theorem whole_bind_apply (action : Loading (StateM σ) α) (next : α → Loading (StateM σ) β)
    (before : LoadState × σ) : (action >>= next).whole before =
      (next (action.whole before).1).whole (action.whole before).2 :=
  rfl

theorem whole_get (before : LoadState × σ) :
    (MonadState.get : Loading (StateM σ) LoadState).whole before = (before.1, before) :=
  rfl

theorem whole_lift (action : StateM σ α) (state : LoadState) (known : σ) :
    (MonadLiftT.monadLift action : Loading (StateM σ) α).whole (state, known) =
      ((action known).1, state, (action known).2) :=
  rfl

variable (resolver : IncludeResolver (StateM σ)) (source : FileId) (directive : IncludeDecl)
  {state : LoadState} (known : σ)

theorem whole_resolveAnew : (resolveAnew resolver source directive).whole (state, known) =
    let result := resolver.resolve (state.files.path source) directive.path known
    ((state.settle directive result.1).1,
      { state with files := (state.settle directive result.1).2 }, result.2) := by
  rw [resolveAnew, whole_bind_apply, whole_get, whole_bind_apply, whole_lift]
  dsimp only
  generalize resolver.resolve (state.files.path source) directive.path known = result
  obtain ⟨found?, after⟩ := result
  cases found? <;> rfl

theorem whole_resolve_of_some {answer : Option FileId}
    (asked : state.answers.lookup (source, directive.path) = some answer) :
    (resolve resolver source directive).whole (state, known) = (answer, state, known) := by
  rw [resolve, whole_bind_apply, whole_get]
  dsimp only
  rw [asked]
  rfl

theorem whole_resolve_of_none (new : state.answers.lookup (source, directive.path) = none) :
    (resolve resolver source directive).whole (state, known) =
      let result := resolver.resolve (state.files.path source) directive.path known
      ((state.settle directive result.1).1, state.answered source directive result.1, result.2) := by
  rw [resolve, whole_bind_apply, whole_get]
  dsimp only
  rw [new]
  dsimp only
  rw [whole_bind_apply, whole_resolveAnew, LoadState.answered]
  dsimp only
  split
  · rfl
  · rw [List.append_nil]
    rfl

/-! ## Loads as chains of steps -/

section

variable {resolver} {before : LoadState × σ}

theorem run_forM {list : List α} {step : α → Loading (StateM σ) PUnit}
    (each : ∀ a ∈ list, ∀ between, LoadRun resolver before between →
      LoadRun resolver between ((step a).whole between).2) :
    LoadRun resolver before ((list.forM step).whole before).2 := by
  -- The steps so far are kept apart, since each step may rely on them.
  suffices from_between : ∀ between, LoadRun resolver before between →
      LoadRun resolver between ((list.forM step).whole between).2 from from_between before .refl
  induction list with
  | nil => exact fun between _ => .refl
  | cons a list induction =>
      intro between so_far
      have first := each a List.mem_cons_self between so_far
      refine first.trans (induction (fun other member => each other (.tail _ member)) _ ?_)
      exact so_far.trans first

theorem run_enter (file : FileId) :
    LoadRun resolver before ((enter file : Loading (StateM σ) Bool).whole before).2 := by
  obtain ⟨state, known⟩ := before
  by_cases visited : file ∈ state.visited
  · have same : ((enter file : Loading (StateM σ) Bool).whole (state, known)).2 = (state, known) := by
      simp [whole, enter, visited]
    rw [same]
  · have same : ((enter file : Loading (StateM σ) Bool).whole (state, known)).2 =
        ({ state with visited := file :: state.visited }, known) := by
      simp [whole, enter, visited]
    rw [same]
    exact .single (.enter file)

variable (resolver)

theorem run_resolve {source : FileId} {directive : IncludeDecl}
    (written : directive ∈ before.1.files.directives source) :
    LoadRun resolver before ((resolve resolver source directive).whole before).2 := by
  obtain ⟨state, known⟩ := before
  cases asked : state.answers.lookup (source, directive.path) with
  | some answer =>
      rw [whole_resolve_of_some resolver source directive known asked]
  | none =>
      rw [whole_resolve_of_none resolver source directive known asked]
      exact .single (.search written asked)

theorem run_visit (limit remaining : Nat) (file : FileId) :
    LoadRun resolver before ((visit resolver limit remaining file).whole before).2 := by
  induction remaining generalizing file before with
  | zero =>
      rw [visit, whole_bind_apply]
      refine (run_enter file).trans ?_
      cases ((enter file : Loading (StateM σ) Bool).whole before).1 with
      | false => exact .refl
      | true =>
          refine run_forM fun directive _ between _ => ?_
          exact .single (.report (tooDeep limit directive))
  | succ remaining induction =>
      rw [visit, whole_bind_apply]
      refine (run_enter file).trans ?_
      cases ((enter file : Loading (StateM σ) Bool).whole before).1 with
      | false => exact .refl
      | true =>
          refine run_forM fun directive written between so_far => ?_
          have run := run_resolve resolver (so_far.grows.mem_directives written)
          rw [whole_bind_apply]
          refine run.trans ?_
          cases ((resolve resolver file directive).whole between).1 with
          | none => exact .refl
          | some target => exact (induction target).head (.link file target)

/-- The table of some roots, before any include of theirs is looked for. -/
def rooted (roots : List FileTree) : LoadState :=
  { LoadState.initial with files := (IncludeWalk.addRoots roots .empty).2 }

theorem whole_addRoots (roots : List FileTree) (state : LoadState) (known : σ) :
    (roots.mapM fun root => addFile root.path root).whole (state, known) =
      ((IncludeWalk.addRoots roots state.files).1,
        { state with files := (IncludeWalk.addRoots roots state.files).2 }, known) := by
  rw [whole]
  dsimp only
  rw [run_addRoots]
  rfl

theorem run_load (limit : Nat) (roots : List FileTree) (known : σ) :
    LoadRun resolver (rooted roots, known)
      ((load resolver limit roots).whole (.initial, known)).2 := by
  rw [load, whole_bind_apply, whole_addRoots]
  exact run_forM fun id _ between _ => run_visit resolver limit limit id

end

/-! ## Searches do not matter to a load -/

/-- All that is known but for the list of searches. -/
def withoutSearches (known : LoadState × (σ × List (Search σ))) : LoadState × σ :=
  (known.1, known.2.1)

/-- A load does the same with a list of its searches as without. -/
def Forgets (noted : Loading (StateM (σ × List (Search σ))) α) (plain : Loading (StateM σ) α) :
    Prop :=
  Follows withoutSearches id noted.whole plain.whole

namespace Forgets

variable {noted : Loading (StateM (σ × List (Search σ))) α} {plain : Loading (StateM σ) α}

theorem apply (forgets : Forgets noted plain) (known : LoadState × (σ × List (Search σ))) :
    plain.whole (withoutSearches known) =
      ((noted.whole known).1, withoutSearches (noted.whole known).2) :=
  Follows.apply forgets known

theorem bind {next : α → Loading (StateM (σ × List (Search σ))) β}
    {next' : α → Loading (StateM σ) β} (first : Forgets noted plain)
    (later : ∀ a, Forgets (next a) (next' a)) : Forgets (noted >>= next) (plain >>= next') := by
  rw [Forgets, whole_bind, whole_bind]
  exact Follows.bind first later

theorem pure (a : α) : Forgets (Pure.pure a) (Pure.pure a : Loading (StateM σ) α) :=
  .ofState fun _ => rfl

theorem get : Forgets MonadState.get (MonadState.get : Loading (StateM σ) LoadState) :=
  .ofState fun _ => rfl

theorem modifyGet (change : LoadState → α × LoadState) :
    Forgets (MonadStateOf.modifyGet change)
      (MonadStateOf.modifyGet change : Loading (StateM σ) α) :=
  .ofState fun _ => rfl

theorem forM {list : List α} {noted : α → Loading (StateM (σ × List (Search σ))) PUnit}
    {plain : α → Loading (StateM σ) PUnit} (each : ∀ a, Forgets (noted a) (plain a)) :
    Forgets (list.forM noted) (list.forM plain) := by
  induction list with
  | nil => exact .pure _
  | cons a list induction => exact .bind (each a) fun _ => induction

end Forgets

theorem forgets_resolve (source : FileId) (directive : IncludeDecl) :
    Forgets (resolve resolver.noted source directive) (resolve resolver source directive) := by
  refine .ofState fun (state, known, searches) => ?_
  rw [withoutSearches]
  cases asked : state.answers.lookup (source, directive.path) with
  | some answer =>
      rw [whole_resolve_of_some _ _ _ _ asked, whole_resolve_of_some _ _ _ _ asked]
      rfl
  | none =>
      rw [whole_resolve_of_none _ _ _ _ asked, whole_resolve_of_none _ _ _ _ asked]
      rfl

theorem forgets_visit (limit remaining : Nat) (file : FileId) :
    Forgets (visit resolver.noted limit remaining file) (visit resolver limit remaining file) := by
  induction remaining generalizing file with
  | zero =>
      refine .bind (.modifyGet _) fun fresh => ?_
      cases fresh with
      | false => exact .pure _
      | true => exact .bind .get fun state => .forM fun directive => .modifyGet _
  | succ remaining induction =>
      refine .bind (.modifyGet _) fun fresh => ?_
      cases fresh with
      | false => exact .pure _
      | true =>
          refine .bind .get fun state => .forM fun directive => ?_
          refine .bind (forgets_resolve resolver file directive) fun target? => ?_
          cases target? with
          | none => exact .pure _
          | some target => exact .bind (.modifyGet _) fun _ => induction target

/-- A load comes to the same files whether or not its searches are noted. -/
theorem forgets_load (limit : Nat) (roots : List FileTree) :
    Forgets (load resolver.noted limit roots) (load resolver limit roots) := by
  refine .bind (.ofState fun (state, known) => ?_) fun ids =>
    .forM fun id => forgets_visit resolver limit limit id
  rw [whole_addRoots, withoutSearches, whole_addRoots]
  rfl

end Loading
end IdlSchema
