import IdlSchema.Files.Closure
import IdlSchema.Proofs.Link.Names
import IdlSchema.Proofs.SideBySide
import IdlSchema.Proofs.Tree.Unplaced

/-!
# Loading files without positions

Includes are followed by paths alone.  Where roots and the answers of a resolver are left without
positions, the same questions are asked and the same files are found with the same problems, but for
positions.  Of a root the path by which it names itself is kept.
-/

namespace IdlSchema

/-- A file without positions. -/
def SchemaFile.unplaced (file : SchemaFile) : SchemaFile :=
  { file with tree := file.tree.unplaced }

/-- The files without positions. -/
def FileTable.unplaced (files : FileTable) : FileTable :=
  { files := files.files.map SchemaFile.unplaced }

/-- What an include was found to be, without positions. -/
def ResolvedInclude.unplaced (found : ResolvedInclude) : ResolvedInclude :=
  { found with tree := found.tree.unplaced }

namespace IncludeResolver

variable {m : Type → Type} [Monad m]

/-- A resolver with all positions left out of its answers. -/
def unplaced (resolver : IncludeResolver m) : IncludeResolver m :=
  { resolve := fun includer written =>
      Option.map ResolvedInclude.unplaced <$> resolver.resolve includer written }

/-- Questions are recorded in the same way. -/
theorem unplaced_recorded [LawfulMonad m] (resolver : IncludeResolver m) :
    resolver.recorded.unplaced = resolver.unplaced.recorded := by
  refine congrArg IncludeResolver.mk (funext fun includer => funext fun written => ?_)
  rw [recorded, unplaced, map_bind]
  refine bind_congr fun _ => ?_
  funext asked
  simp

end IncludeResolver

namespace FileTable

variable (files : FileTable)

@[simp]
theorem get?_unplaced (id : FileId) :
    files.unplaced.get? id = (files.get? id).map SchemaFile.unplaced :=
  List.getElem?_map

@[simp]
theorem path_unplaced (id : FileId) : files.unplaced.path id = files.path id := by
  rw [path, path, get?_unplaced, Option.map_map]
  rfl

@[simp]
theorem qualifier_unplaced (id : FileId) : files.unplaced.qualifier id = files.qualifier id := by
  rw [qualifier, qualifier, get?_unplaced, Option.map_map]
  rfl

@[simp]
theorem includes_unplaced (id : FileId) : files.unplaced.includes id = files.includes id := by
  rw [includes, includes, get?_unplaced, Option.map_map]
  rfl

@[simp]
theorem directives_unplaced (id : FileId) :
    files.unplaced.directives id = (files.directives id).map IncludeDecl.unplaced := by
  rw [directives, directives, get?_unplaced]
  cases files.get? id <;> rfl

@[simp]
theorem tree_unplaced (id : FileId) : files.unplaced.tree id = (files.tree id).unplaced := by
  rw [tree, tree, get?_unplaced]
  cases files.get? id <;> rfl

@[simp]
theorem lookup_unplaced (path : String) : files.unplaced.lookup path = files.lookup path := by
  rw [lookup, lookup, unplaced, List.findIdx?_map]
  rfl

theorem addInclude_unplaced (source target : FileId) :
    files.unplaced.addInclude source target = (files.addInclude source target).unplaced := by
  refine congrArg FileTable.mk (List.ext_getElem? fun index => ?_)
  rw [unplaced, List.getElem?_modify, List.getElem?_map, List.getElem?_map, addInclude,
    List.getElem?_modify]
  cases files.files[index]? with
  | none => rfl
  | some file =>
      by_cases here : source.index = index
      · by_cases known : target ∈ file.includes <;> simp [here, known, SchemaFile.unplaced]
      · simp [here]

theorem follows_add (path : String) (tree : FileTree) :
    Follows unplaced id (add path tree) (add path tree.unplaced) := by
  refine .ofState fun files => ?_
  rw [add, add, lookup_unplaced]
  cases files.lookup path with
  | some id => rfl
  | none => simp [unplaced, SchemaFile.unplaced, size]

@[simp]
theorem dependencyOrder_unplaced : files.unplaced.dependencyOrder = files.dependencyOrder := by
  have graph : files.unplaced.includeGraph = files.includeGraph := by
    rw [includeGraph, includeGraph, unplaced, List.map_map]
    rfl
  rw [dependencyOrder, dependencyOrder, graph]

end FileTable

/-- What is known while includes are followed, without positions. -/
def LoadState.unplaced (state : LoadState) : LoadState :=
  { state with
    files := state.files.unplaced
    reported := state.reported.map Diagnostic.unplaced }

namespace Loading

variable {m : Type → Type} [Monad m] [LawfulMonad m]

theorem follows_report (diagnostic : Diagnostic) :
    Follows LoadState.unplaced id (report diagnostic : Loading m Unit)
      (report diagnostic.unplaced) :=
  .ofModify fun state => by
    simp only [LoadState.unplaced, List.map_append, List.map_cons, List.map_nil]

theorem follows_addFile (path : String) (tree : FileTree) :
    Follows LoadState.unplaced id (addFile path tree : Loading m FileId)
      (addFile path tree.unplaced) := by
  refine .ofModifyGet fun state => ?_
  have added := (FileTable.follows_add path tree).apply state.files
  have same : (FileTable.add path tree.unplaced).run state.unplaced.files =
      FileTable.add path tree.unplaced state.files.unplaced := rfl
  rw [same, added]
  rfl

theorem follows_enter (file : FileId) :
    Follows LoadState.unplaced id (enter file : Loading m Bool) (enter file) := by
  refine .ofModifyGet fun state => ?_
  by_cases visited : file ∈ state.visited
  · simp [LoadState.unplaced, visited]
  · simp [LoadState.unplaced, visited]

variable (resolver : IncludeResolver m)

theorem follows_resolveAnew (source : FileId) (directive : IncludeDecl) :
    Follows LoadState.unplaced id (resolveAnew resolver source directive)
      (resolveAnew resolver.unplaced source directive.unplaced) := by
  refine .bind .ofGet fun state => ?_
  have includer : state.unplaced.files.path source = state.files.path source :=
    state.files.path_unplaced source
  rw [includer]
  have answered : Follows LoadState.unplaced (Option.map ResolvedInclude.unplaced)
      (liftM (resolver.resolve (state.files.path source) directive.path) : Loading m _)
      (liftM (resolver.unplaced.resolve (state.files.path source) directive.path)) := by
    intro state
    simp [IncludeResolver.unplaced]
  refine .bind answered fun found => ?_
  cases found with
  | some found =>
      dsimp only [Option.map_some]
      rw [← bind_pure_comp, ← bind_pure_comp]
      exact .bind (follows_addFile found.path found.tree) fun file => .ofPure (some file)
  | none =>
      refine .bind .ofGet fun state => ?_
      have same : state.unplaced.files.lookup directive.path =
          state.files.lookup directive.path := state.files.lookup_unplaced directive.path
      rw [IncludeDecl.unplaced, same]
      exact .ofPure _

theorem follows_resolve (source : FileId) (directive : IncludeDecl) :
    Follows LoadState.unplaced id (resolve resolver source directive)
      (resolve resolver.unplaced source directive.unplaced) := by
  refine .bind .ofGet fun state => ?_
  have asked : state.unplaced.answers.lookup (source, directive.unplaced.path) =
      state.answers.lookup (source, directive.path) := rfl
  dsimp only
  rw [asked]
  cases state.answers.lookup (source, directive.path) with
  | some answer => exact .ofPure answer
  | none =>
      refine .bind (follows_resolveAnew resolver source directive) fun answer => ?_
      have kept : Follows LoadState.unplaced id
          (do
            modify fun state : LoadState => { state with
              answers := ((source, directive.path), answer) :: state.answers }
            return answer : Loading m (Option FileId))
          (do
            modify fun state : LoadState => { state with
              answers := ((source, directive.path), answer) :: state.answers }
            return answer) :=
        .bind (.ofModify fun _ => rfl) fun _ => .ofPure answer
      cases answer with
      | some target => exact kept
      | none => exact .bind (follows_report _) fun _ => kept

theorem follows_visit (limit remaining : Nat) (file : FileId) :
    Follows LoadState.unplaced id (visit resolver limit remaining file)
      (visit resolver.unplaced limit remaining file) := by
  have directives (state : LoadState) : state.unplaced.files.directives file =
      (state.files.directives file).map IncludeDecl.unplaced :=
    state.files.directives_unplaced file
  induction remaining generalizing file with
  | zero =>
      rw [visit, visit]
      refine .bind (follows_enter file) fun entered => ?_
      cases entered with
      | false => exact .ofPure ()
      | true =>
          refine .bind .ofGet fun state => ?_
          rw [directives]
          exact .forM fun directive _ => follows_report (tooDeep limit directive)
  | succ remaining induction =>
      rw [visit, visit]
      refine .bind (follows_enter file) fun entered => ?_
      cases entered with
      | false => exact .ofPure ()
      | true =>
          refine .bind .ofGet fun state => ?_
          rw [directives]
          refine .forM fun directive _ => ?_
          refine .bind (follows_resolve resolver file directive) fun target? => ?_
          cases target? with
          | none => exact .ofPure ()
          | some target =>
              refine .bind (.ofModify fun state => ?_) fun _ =>
                induction target fun state => state.files.directives_unplaced target
              have files := state.files.addInclude_unplaced file target
              exact congrArg (fun files => { state.unplaced with files }) files

/-- Adds roots under given paths and then visits each. -/
def loadUnder (limit : Nat) (roots : List (String × FileTree)) : Loading m Unit := do
  let ids ← roots.mapM fun (path, root) => addFile path root
  ids.forM (visit resolver limit limit)

theorem follows_load (limit : Nat) (roots : List FileTree) :
    Follows LoadState.unplaced id (load resolver limit roots)
      (loadUnder resolver.unplaced limit (roots.map FileTree.unplacedRoot)) := by
  have added : Follows LoadState.unplaced (List.map id)
      (roots.mapM fun root => addFile root.path root : Loading m _)
      ((roots.map FileTree.unplacedRoot).mapM fun (path, root) => addFile path root) :=
    .mapM fun root _ => follows_addFile root.path root
  exact .bind added fun ids => .forM fun file _ => follows_visit resolver limit limit file

end Loading

namespace FileTable

variable {m : Type → Type} [Monad m] [LawfulMonad m]

/-- What was found, without positions. -/
def unplacedLoad (loaded : FileTable × Diagnostics) : FileTable × Diagnostics :=
  (loaded.1.unplaced, loaded.2.map Diagnostic.unplaced)

/-- Where answers and roots differ in positions alone, what is found does so too. -/
theorem load_congr {resolver resolver' : IncludeResolver m}
    (same_answers : resolver'.unplaced = resolver.unplaced) {roots roots' : List FileTree}
    (same_roots : roots'.map FileTree.unplacedRoot = roots.map FileTree.unplacedRoot)
    (limit : Nat) :
    unplacedLoad <$> load resolver' limit roots' = unplacedLoad <$> load resolver limit roots := by
  have unplaced (resolver : IncludeResolver m) (roots : List FileTree) :
      unplacedLoad <$> load resolver limit roots =
        (fun result => (result.2.files, result.2.reported)) <$>
          (Loading.loadUnder resolver.unplaced limit (roots.map FileTree.unplacedRoot)).run
            .initial := by
    have follows := Loading.follows_load resolver limit roots .initial
    have start : LoadState.initial.unplaced = .initial := rfl
    rw [start] at follows
    rw [follows, load, map_bind, ← comp_map, map_eq_pure_bind]
    refine bind_congr fun result => ?_
    rw [map_pure]
    rfl
  rw [unplaced, unplaced, same_answers, same_roots]

end FileTable
end IdlSchema
