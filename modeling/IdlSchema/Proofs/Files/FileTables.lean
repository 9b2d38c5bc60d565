import IdlSchema.Files.FileTable
import IdlSchema.Proofs.StateRuns

/-!
# Tables of files

A table grows by files at its end and by what its files are found to include.  A file keeps its
place, its path and its contents; as long as no path is taken twice, the place can be told from the
path.  What is looked up in two tables that match file by file matches too.
-/

namespace IdlSchema
namespace FileTable

variable {table before after : FileTable} {id source target : FileId} {file : SchemaFile}

/-- The canonical paths of all files. -/
def paths (table : FileTable) : List String :=
  table.files.map (·.path)

/-- Nothing that is known of a file is lost; what it includes can become more. -/
def Grows (before after : FileTable) : Prop :=
  ∀ id file, before.get? id = some file → ∃ file', after.get? id = some file' ∧
    file'.path = file.path ∧ file'.tree = file.tree ∧ file.includes <+: file'.includes

/-- One file includes another. -/
def Includes (table : FileTable) (source target : FileId) : Prop :=
  target ∈ table.includes source

/-- Every file can be reached from one of some roots. -/
def Reached (table : FileTable) (roots : List FileId) : Prop :=
  ∀ id : FileId, id.index < table.size →
    ∃ root ∈ roots, Relation.ReflTransGen table.Includes root id

theorem get?_eq_some_iff : (∃ file, table.get? id = some file) ↔ id.index < table.size := by
  rw [get?, ← Option.isSome_iff_exists, isSome_getElem?, size]

theorem Grows.refl (table : FileTable) : table.Grows table :=
  fun _ file found => ⟨file, found, rfl, rfl, List.prefix_rfl⟩

theorem Grows.trans {between : FileTable} (first : before.Grows between)
    (second : between.Grows after) : before.Grows after := by
  intro id file found
  obtain ⟨file', found', path', tree', includes'⟩ := first id file found
  obtain ⟨file'', found'', path'', tree'', includes''⟩ := second id file' found'
  exact ⟨file'', found'', path''.trans path', tree''.trans tree', includes'.trans includes''⟩

namespace Grows

theorem lt_size (grows : before.Grows after) (inside : id.index < before.size) :
    id.index < after.size := by
  obtain ⟨file, found⟩ := get?_eq_some_iff.mpr inside
  obtain ⟨file', found', _⟩ := grows id file found
  exact get?_eq_some_iff.mp ⟨file', found'⟩

theorem path_eq (grows : before.Grows after) (inside : id.index < before.size) :
    after.path id = before.path id := by
  obtain ⟨file, found⟩ := get?_eq_some_iff.mpr inside
  obtain ⟨file', found', path', _⟩ := grows id file found
  simp [path, found, found', path']

theorem directives_eq (grows : before.Grows after) (inside : id.index < before.size) :
    after.directives id = before.directives id := by
  obtain ⟨file, found⟩ := get?_eq_some_iff.mpr inside
  obtain ⟨file', found', _, tree', _⟩ := grows id file found
  simp [directives, found, found', tree']

theorem mem_directives {directive : IncludeDecl} (grows : before.Grows after)
    (member : directive ∈ before.directives id) : directive ∈ after.directives id := by
  cases found : before.get? id with
  | none => simp [directives, found] at member
  | some file =>
      rw [grows.directives_eq (get?_eq_some_iff.mp ⟨file, found⟩)]
      exact member

theorem includes (grows : before.Grows after) (includes : before.Includes source target) :
    after.Includes source target := by
  unfold Includes FileTable.includes at includes
  cases found : before.get? source with
  | none => simp [found] at includes
  | some file =>
      obtain ⟨file', found', _, _, more⟩ := grows source file found
      simp only [found, Option.map_some, Option.getD_some] at includes
      simpa [Includes, FileTable.includes, found'] using more.subset includes

/-- New files that a file includes can be reached if all others can. -/
theorem reached {roots : List FileId} (grows : before.Grows after) (reached : before.Reached roots)
    (inside : source.index < before.size)
    (fresh : ∀ id : FileId, id.index < after.size →
      id.index < before.size ∨ after.Includes source id) :
    after.Reached roots := by
  have kept {id : FileId} (old : id.index < before.size) :
      ∃ root ∈ roots, Relation.ReflTransGen after.Includes root id := by
    obtain ⟨root, member, path⟩ := reached id old
    exact ⟨root, member, Relation.ReflTransGen.mono (fun _ _ => grows.includes) _ _ path⟩
  intro id id_inside
  rcases fresh id id_inside with old | new
  · exact kept old
  · obtain ⟨root, member, path⟩ := kept inside
    exact ⟨root, member, path.tail new⟩

end Grows

/-! ## Adding files -/

theorem exists_of_lookup {path : String} (found : table.lookup path = some id) :
    id.index < table.size ∧ table.path id = path := by
  obtain ⟨index, found', rfl⟩ := Option.map_eq_some_iff.mp found
  obtain ⟨inside, same, _⟩ := List.findIdx?_eq_some_iff_getElem.mp found'
  refine ⟨inside, ?_⟩
  rw [FileTable.path, get?, List.getElem?_eq_getElem inside]
  simpa using same

theorem lookup_eq_none_iff {path : String} :
    table.lookup path = none ↔ path ∉ table.paths := by
  simp [lookup, paths, List.findIdx?_eq_none_iff]

theorem lookup_path (nodup : table.paths.Nodup) (inside : id.index < table.size) :
    table.lookup (table.path id) = some id := by
  obtain ⟨file, found⟩ := get?_eq_some_iff.mpr inside
  rw [path, found, lookup, Option.map_some, Option.getD_some,
    List.findIdx?_of_nodup nodup found, Option.map_some]

theorem eq_of_path_eq (nodup : table.paths.Nodup) {other : FileId}
    (inside : id.index < table.size) (inside' : other.index < table.size)
    (same : table.path id = table.path other) : id = other := by
  have found := lookup_path nodup inside
  rw [same, lookup_path nodup inside'] at found
  exact (Option.some.inj found).symm

/-- A file is found by its path, or else it goes to the end of the table. -/
theorem add_cases (table : FileTable) (path : String) (tree : FileTree) :
    (∃ id, table.lookup path = some id ∧ add path tree table = (id, table)) ∨
      (table.lookup path = none ∧ add path tree table =
        (⟨table.size⟩, { files := table.files ++ [{ path, tree, includes := [] }] })) := by
  rw [add]
  cases table.lookup path with
  | some id => exact .inl ⟨id, rfl, rfl⟩
  | none => exact .inr ⟨rfl, rfl⟩

theorem grows_append (table : FileTable) (file : SchemaFile) :
    table.Grows { files := table.files ++ [file] } := by
  intro id other found
  refine ⟨other, ?_, rfl, rfl, List.prefix_rfl⟩
  rw [get?, List.getElem?_append_left (get?_eq_some_iff.mp ⟨other, found⟩)]
  exact found

theorem get?_append (table : FileTable) (file : SchemaFile) :
    get? { files := table.files ++ [file] } ⟨table.size⟩ = some file :=
  List.getElem?_concat_length

/-- A file has been added, or found, under a path. -/
structure Added (before : FileTable) (path : String) (result : FileId × FileTable) : Prop where
  grows : before.Grows result.2
  nodup : before.paths.Nodup → result.2.paths.Nodup
  inside : result.1.index < result.2.size
  path_eq : result.2.path result.1 = path
  fresh : ∀ id : FileId, id.index < result.2.size → id.index < before.size ∨ id = result.1
  includes : ∀ id, result.2.includes id = before.includes id

theorem added_add (table : FileTable) (path : String) (tree : FileTree) :
    table.Added path (add path tree table) := by
  rcases table.add_cases path tree with ⟨id, found, same⟩ | ⟨unused, same⟩
  · obtain ⟨inside, path_eq⟩ := exists_of_lookup found
    rw [same]
    exact ⟨.refl table, fun nodup => nodup, inside, path_eq, fun _ => .inl, fun _ => rfl⟩
  · rw [same]
    constructor
    case grows => exact table.grows_append _
    case nodup =>
      intro nodup
      rw [lookup_eq_none_iff] at unused
      rw [paths, List.map_append, List.map_singleton]
      exact nodup.append (List.nodup_singleton _) (List.disjoint_singleton.mpr unused)
    case inside => simp [size]
    case path_eq => rw [FileTable.path, get?_append, Option.map_some, Option.getD_some]
    case fresh =>
      intro id inside
      rcases Nat.lt_or_ge id.index table.size with old | new
      · exact .inl old
      · refine .inr (congrArg FileId.mk (Nat.le_antisymm ?_ new))
        simp only [size, List.length_append, List.length_singleton] at inside ⊢
        omega
    case includes =>
      intro id
      rw [FileTable.includes, FileTable.includes, get?, get?]
      rcases Nat.lt_trichotomy id.index table.files.length with old | last | beyond
      · rw [List.getElem?_append_left old]
      · rw [last, List.getElem?_concat_length, List.getElem?_eq_none (Nat.le_refl _)]
        rfl
      · rw [List.getElem?_eq_none (Nat.le_of_lt beyond), List.getElem?_eq_none]
        rw [List.length_append, List.length_singleton]
        omega

/-! ## Noting includes -/

theorem get?_addInclude (table : FileTable) (source target id : FileId) :
    (table.addInclude source target).get? id = (table.get? id).map fun file =>
      if source = id then
        { file with
          includes := if target ∈ file.includes then file.includes else file.includes ++ [target] }
      else file := by
  rw [addInclude, get?, get?, List.getElem?_modify]
  have same : source.index = id.index ↔ source = id := by
    cases source
    cases id
    simp
  cases table.files[id.index]? with
  | none => rfl
  | some file =>
      simp only [Option.map_eq_map, Option.map_some, same]
      by_cases here : source = id
      · by_cases known : target ∈ file.includes <;> simp [here, known]
      · simp [here]

theorem size_addInclude (table : FileTable) (source target : FileId) :
    (table.addInclude source target).size = table.size :=
  List.length_modify ..

theorem grows_addInclude (table : FileTable) (source target : FileId) :
    table.Grows (table.addInclude source target) := by
  intro id file found
  refine ⟨_, (table.get?_addInclude source target id).trans (congrArg _ found), ?_⟩
  dsimp only
  split
  · refine ⟨rfl, rfl, ?_⟩
    dsimp only
    split
    · exact List.prefix_rfl
    · exact List.prefix_append ..
  · exact ⟨rfl, rfl, List.prefix_rfl⟩

theorem paths_addInclude (table : FileTable) (source target : FileId) :
    (table.addInclude source target).paths = table.paths := by
  refine List.ext_getElem? fun index => ?_
  have step := congrArg (Option.map (·.path)) (table.get?_addInclude source target ⟨index⟩)
  rw [get?, get?, Option.map_map] at step
  rw [paths, paths, List.getElem?_map, List.getElem?_map, step]
  refine congrFun (congrArg Option.map (funext fun file => ?_)) _
  dsimp only [Function.comp_apply]
  split <;> rfl

theorem includes_addInclude_of_ne (table : FileTable) {source id : FileId} (target : FileId)
    (differ : source ≠ id) :
    (table.addInclude source target).includes id = table.includes id := by
  rw [includes, includes, get?_addInclude]
  cases table.get? id <;> simp [differ]

theorem includes_addInclude_self (table : FileTable) {source : FileId} (target : FileId)
    (inside : source.index < table.size) :
    (table.addInclude source target).includes source =
      if target ∈ table.includes source then table.includes source
      else table.includes source ++ [target] := by
  obtain ⟨file, found⟩ := get?_eq_some_iff.mpr inside
  simp [includes, get?_addInclude, found]

/-! ## Tables that match file by file -/

section

variable {table' : FileTable} {related : SchemaFile → SchemaFile → Prop}

theorem get?_rel (all : List.Forall₂ related table.files table'.files) (id : FileId) :
    Option.Rel related (table.get? id) (table'.get? id) := by
  rw [get?, get?]
  generalize table.files = files, table'.files = files', id.index = index at all ⊢
  induction all generalizing index with
  | nil => exact .none
  | cons first _ induction =>
      cases index with
      | zero => exact .some first
      | succ index => exact induction index

/-- What files that match have in common is the same wherever they stand in their tables. -/
theorem getD_get?_eq {α : Type} {what : SchemaFile → α} {absent : α}
    (all : List.Forall₂ related table.files table'.files)
    (same : ∀ file file', related file file' → what file' = what file) (id : FileId) :
    ((table'.get? id).map what).getD absent = ((table.get? id).map what).getD absent := by
  have both := get?_rel all id
  generalize table.get? id = found, table'.get? id = found' at both ⊢
  cases both with
  | some holds => exact same _ _ holds
  | none => rfl

end

end FileTable
end IdlSchema
