import IdlSchema.Files.Closure
import IdlSchema.Proofs.Link.Names
import IdlSchema.Proofs.SideBySide
import IdlSchema.Proofs.Tree.Renaming

/-!
# Loading files in which type names are replaced

Includes are followed by paths and directives alone.  Where roots and answers of a resolver are
changed in the names of types only, the same files are found with the same problems, each changed in
the same way.
-/

namespace IdlSchema

/-- A way to replace names of types in files, given their canonical paths. -/
structure FileTree.Edit where
  apply : String → FileTree → FileTree
  renamed : ∀ (path : String) (tree : FileTree), tree.Renamed (fun _ => True) (apply path tree)

/-- The edit that changes each name of a type, in whatever file it stands. -/
def FileTree.Edit.everywhere (change : String → String) : FileTree.Edit where
  apply _ tree := tree.mapNames change
  renamed _ tree := tree.renamed_mapNames fun _ _ => trivial

variable (edit : FileTree.Edit)

/-- The table with the names of types in each file replaced. -/
def FileTable.edited (files : FileTable) : FileTable :=
  { files := files.files.map fun file => { file with tree := edit.apply file.path file.tree } }

/-- The resolver with the names of types in each file that it finds replaced. -/
def IncludeResolver.edited {m : Type → Type} [Monad m] (resolver : IncludeResolver m) :
    IncludeResolver m :=
  { resolve := fun includer written => do
      let found? ← resolver.resolve includer written
      return found?.map fun found => { found with tree := edit.apply found.path found.tree } }

namespace FileTable

variable (files : FileTable)

theorem get?_edited (id : FileId) : (files.edited edit).get? id =
    (files.get? id).map fun file => { file with tree := edit.apply file.path file.tree } :=
  List.getElem?_map

theorem path_edited (id : FileId) : (files.edited edit).path id = files.path id := by
  rw [path, path, get?_edited]
  cases files.get? id <;> rfl

theorem qualifier_edited (id : FileId) :
    (files.edited edit).qualifier id = files.qualifier id := by
  rw [qualifier, qualifier, get?_edited]
  cases files.get? id <;> rfl

theorem includes_edited (id : FileId) :
    (files.edited edit).includes id = files.includes id := by
  rw [includes, includes, get?_edited]
  cases files.get? id <;> rfl

theorem directives_edited (id : FileId) :
    (files.edited edit).directives id = files.directives id := by
  rw [directives, directives, get?_edited]
  cases files.get? id with
  | none => rfl
  | some file => exact (edit.renamed file.path file.tree).includes

theorem lookup_edited (path : String) :
    (files.edited edit).lookup path = files.lookup path := by
  rw [lookup, lookup, edited, List.findIdx?_map]
  rfl

theorem addInclude_edited (source target : FileId) :
    (files.edited edit).addInclude source target =
      (files.addInclude source target).edited edit := by
  rw [addInclude, addInclude, edited, edited]
  refine congrArg FileTable.mk (List.ext_getElem? fun index => ?_)
  rw [List.getElem?_modify, List.getElem?_map, List.getElem?_map, List.getElem?_modify]
  cases files.files[index]? with
  | none => rfl
  | some file =>
      by_cases here : source.index = index
      · by_cases known : target ∈ file.includes <;> simp [here, known]
      · simp [here]

theorem add_edited (path : String) (tree : FileTree) :
    add path (edit.apply path tree) (files.edited edit) =
      ((add path tree files).1, (add path tree files).2.edited edit) := by
  rw [add, add, lookup_edited]
  cases files.lookup path with
  | some id => rfl
  | none => simp [edited, size]

end FileTable

/-! ## Runs side by side -/

/-- What is known while includes are followed, with the names of types in each file replaced. -/
def LoadState.edited (state : LoadState) : LoadState :=
  { state with files := state.files.edited edit }

namespace Loading

variable {m : Type → Type} [Monad m] {α β α' β' : Type}

/-- From an edited state, a step does what another does from the state, to a changed result. -/
def Commutes (change : α → α') (step : Loading m α) (step' : Loading m α') : Prop :=
  ∀ state : LoadState, step'.run (state.edited edit) =
    (fun result => (change result.1, result.2.edited edit)) <$> step.run state

variable {edit} [LawfulMonad m]

namespace Commutes

theorem ofPure (change : α → α') (a : α) :
    Commutes edit change (pure a : Loading m α) (pure (change a)) :=
  Follows.ofPure a

theorem bind {change : α → α'} {change' : β → β'} {step : Loading m α} {step' : Loading m α'}
    {next : α → Loading m β} {next' : α' → Loading m β'}
    (first : Commutes edit change step step')
    (second : ∀ a, Commutes edit change' (next a) (next' (change a))) :
    Commutes edit change' (step >>= next) (step' >>= next') :=
  Follows.bind first second

/-- A step without effects that changes the state. -/
theorem ofModifyGet {f : LoadState → α × LoadState} {f' : LoadState → α' × LoadState}
    {change : α → α'} (same : ∀ state : LoadState, f' (state.edited edit) =
      (change (f state).1, (f state).2.edited edit)) :
    Commutes edit change (modifyGet f : Loading m α) (modifyGet f' : Loading m α') :=
  Follows.ofModifyGet same

theorem ofModify {f : LoadState → LoadState}
    (same : ∀ state : LoadState, f (state.edited edit) = (f state).edited edit) :
    Commutes edit id (modify f : Loading m PUnit) (modify f) :=
  Follows.ofModify same

theorem ofGet : Commutes edit (LoadState.edited edit) (get : Loading m LoadState) get :=
  Follows.ofGet

theorem forM {list : List β} {step step' : β → Loading m PUnit}
    (each : ∀ b, Commutes edit id (step b) (step' b)) :
    Commutes edit id (list.forM step) (list.forM step') := by
  have all : Follows (LoadState.edited edit) id (list.forM step) ((list.map id).forM step') :=
    .forM fun b _ => each b
  rwa [List.map_id] at all

theorem mapM {list : List β} {step step' : β → Loading m α}
    (each : ∀ b, Commutes edit id (step b) (step' b)) :
    Commutes edit id (list.mapM step) (list.mapM step') := by
  have all : Follows (LoadState.edited edit) (List.map id) (list.mapM step)
      ((list.map id).mapM step') := .mapM fun b _ => each b
  rwa [List.map_id, List.map_id_fun] at all

end Commutes

variable (edit)

theorem commutes_report (diagnostic : Diagnostic) :
    Commutes edit id (report diagnostic : Loading m Unit) (report diagnostic) :=
  .ofModify fun _ => rfl

theorem commutes_addFile (path : String) (tree : FileTree) :
    Commutes edit id (addFile path tree : Loading m FileId) (addFile path (edit.apply path tree)) := by
  refine .ofModifyGet fun state => ?_
  have same : (FileTable.add path (edit.apply path tree)).run (state.files.edited edit) =
      (((FileTable.add path tree).run state.files).1,
        ((FileTable.add path tree).run state.files).2.edited edit) :=
    state.files.add_edited edit path tree
  dsimp only [LoadState.edited]
  rw [same]
  rfl

theorem commutes_enter (file : FileId) :
    Commutes edit id (enter file : Loading m Bool) (enter file) := by
  refine .ofModifyGet fun state => ?_
  by_cases visited : file ∈ state.visited
  · simp [LoadState.edited, visited]
  · simp [LoadState.edited, visited]

theorem commutes_resolveAnew (resolver : IncludeResolver m) (source : FileId)
    (directive : IncludeDecl) :
    Commutes edit id (resolveAnew resolver source directive)
      (resolveAnew (resolver.edited edit) source directive) := by
  refine .bind .ofGet fun state => ?_
  rw [LoadState.edited, FileTable.path_edited]
  have answered : Commutes edit
      (Option.map fun found : ResolvedInclude => { found with tree := edit.apply found.path found.tree })
      (liftM (resolver.resolve (state.files.path source) directive.path) : Loading m _)
      (liftM ((resolver.edited edit).resolve (state.files.path source) directive.path)) := by
    intro state
    simp [IncludeResolver.edited]
  refine .bind answered fun found => ?_
  cases found with
  | some found =>
      dsimp only [Option.map_some]
      rw [← bind_pure_comp, ← bind_pure_comp]
      exact .bind (commutes_addFile edit found.path found.tree) fun file => .ofPure id (some file)
  | none =>
      refine .bind .ofGet fun state => ?_
      rw [LoadState.edited, FileTable.lookup_edited]
      exact .ofPure id _

theorem commutes_resolve (resolver : IncludeResolver m) (source : FileId)
    (directive : IncludeDecl) :
    Commutes edit id (resolve resolver source directive)
      (resolve (resolver.edited edit) source directive) := by
  refine .bind .ofGet fun state => ?_
  rw [LoadState.edited]
  dsimp only
  cases state.answers.lookup (source, directive.path) with
  | some answer => exact .ofPure id answer
  | none =>
      refine .bind (commutes_resolveAnew edit resolver source directive) fun answer => ?_
      have kept : Commutes edit id
          (do
            modify fun state : LoadState => { state with
              answers := ((source, directive.path), answer) :: state.answers }
            return answer : Loading m (Option FileId))
          (do
            modify fun state : LoadState => { state with
              answers := ((source, directive.path), answer) :: state.answers }
            return answer) :=
        .bind (.ofModify fun _ => rfl) fun _ => .ofPure id answer
      cases answer with
      | some target => exact kept
      | none => exact .bind (commutes_report edit _) fun _ => kept

theorem commutes_visit (resolver : IncludeResolver m) (limit remaining : Nat) (file : FileId) :
    Commutes edit id (visit resolver limit remaining file)
      (visit (resolver.edited edit) limit remaining file) := by
  induction remaining generalizing file with
  | zero =>
      rw [visit, visit]
      refine .bind (commutes_enter edit file) fun entered => ?_
      cases entered with
      | false => exact .ofPure id ()
      | true =>
          refine .bind .ofGet fun state => ?_
          rw [LoadState.edited, FileTable.directives_edited]
          exact .forM fun directive => commutes_report edit (tooDeep limit directive)
  | succ remaining induction =>
      rw [visit, visit]
      refine .bind (commutes_enter edit file) fun entered => ?_
      cases entered with
      | false => exact .ofPure id ()
      | true =>
          refine .bind .ofGet fun state => ?_
          rw [LoadState.edited, FileTable.directives_edited]
          refine .forM fun directive => ?_
          refine .bind (commutes_resolve edit resolver file directive) fun target? => ?_
          cases target? with
          | none => exact .ofPure id ()
          | some target =>
              refine .bind (.ofModify fun state => ?_) fun _ => induction target
              rw [LoadState.edited, FileTable.addInclude_edited]
              rfl

theorem commutes_load (resolver : IncludeResolver m) (limit : Nat) (roots : List FileTree) :
    Commutes edit id (load resolver limit roots)
      (load (resolver.edited edit) limit (roots.map fun root => edit.apply root.path root)) := by
  have added : Commutes edit id (roots.mapM fun root => addFile root.path root : Loading m _)
      ((roots.map fun root => edit.apply root.path root).mapM fun root =>
        addFile root.path root) := by
    rw [List.mapM_map]
    refine .mapM fun root => ?_
    have same : (edit.apply root.path root).path = root.path :=
      congrArg Location.path (edit.renamed root.path root).location
    dsimp only [Function.comp_apply]
    rw [same]
    exact commutes_addFile edit root.path root
  exact .bind added fun ids => .forM fun file => commutes_visit edit resolver limit limit file

end Loading

/-- The files that are found are edited, and the problems are the same. -/
theorem FileTable.load_edited {m : Type → Type} [Monad m] [LawfulMonad m]
    (resolver : IncludeResolver m) (limit : Nat) (roots : List FileTree) :
    FileTable.load (resolver.edited edit) limit (roots.map fun root => edit.apply root.path root) =
      (fun loaded => (loaded.1.edited edit, loaded.2)) <$> FileTable.load resolver limit roots := by
  have commutes := Loading.commutes_load edit resolver limit roots .initial
  rw [load, load]
  have start : LoadState.initial.edited edit = .initial := rfl
  rw [start] at commutes
  rw [commutes, bind_map_left, map_bind]
  congr 1
  funext result
  rw [map_pure]
  rfl

end IdlSchema
