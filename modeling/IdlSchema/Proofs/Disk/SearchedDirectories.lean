import IdlSchema.Proofs.Disk.LoadedOnce

/-!
# The directories in which includes are looked for

The first tree that is selected for a file is kept, but the JSON file that is known for it is the one
that was selected last.  So an include is looked for next to the last JSON file of the file that it is
written in; that is next to the one with the directive if both lie in the same directory.
-/

namespace IdlSchema

/-- The selections ahead of a search. -/
def DiskLoad.earlier (load : DiskLoad) (system : FileSystem Id) (includeDirs paths : List String)
    (roots : List FileTree) (index : Nat) : List Selection :=
  FileSystem.given paths roots ++ selections system includeDirs (load.searches.take index)

/-- Includes are looked for next to the JSON file whose tree is kept, and then in the directories. -/
def DiskLoad.SearchesBesideKept (load : DiskLoad) (system : FileSystem Id)
    (includeDirs paths : List String) (roots : List FileTree) : Prop :=
  ∀ (index : Nat) search kept, load.searches[index]? = some search →
    (load.earlier system includeDirs paths roots index).find? (·.schemaPath == search.includer) =
      some kept →
    search.known.directories includeDirs search.includer =
      (Path.parent? kept.jsonPath).toList ++ includeDirs

/-- A directive of the tree that is kept, looked for next to the JSON file that was selected last. -/
structure SearchedBesideLast (system : FileSystem Id) (includeDirs : List String)
    (earlier all : List Selection) (search : Search Origins) (kept last : Selection) : Prop where
  /-- The tree that is kept was selected first, then and for good. -/
  first : earlier.find? (·.schemaPath == search.includer) = some kept ∧
    all.find? (·.schemaPath == search.includer) = some kept
  read : system.readTree kept.jsonPath = .ok kept.tree
  written : ∃ directive ∈ kept.tree.includes, directive.path = search.written
  newest : earlier.reverse.find? (·.schemaPath == search.includer) = some last
  directories : search.known.directories includeDirs search.includer =
    (Path.parent? last.jsonPath).toList ++ includeDirs
  candidates : search.known.candidates includeDirs search.includer search.written =
    ((Path.parent? last.jsonPath).toList ++ includeDirs).flatMap
      (Origins.candidatesIn search.written)
  /-- The search is next to the tree that is kept if and only if that is the same directory. -/
  beside_iff : search.known.directories includeDirs search.includer =
      (Path.parent? kept.jsonPath).toList ++ includeDirs ↔
    Path.parent? kept.jsonPath = Path.parent? last.jsonPath

/-- All searches of a load are next to the JSON files that were selected last. -/
structure SearchesBesideLast (system : FileSystem Id) (includeDirs : List String) (limit : Nat)
    (paths : List String) (roots : List FileTree) (origins : Origins) (load : DiskLoad) : Prop where
  /-- The searches are those of the program. -/
  loaded : (FileTable.load (system.resolver includeDirs) limit roots).run origins =
    ((load.state.files, load.state.reported), load.origins)
  /-- A file has the tree that was selected for it first. -/
  trees : ∀ file ∈ load.state.files.files, ∃ first,
    (load.earlier system includeDirs paths roots load.searches.length).find?
      (·.schemaPath == file.path) = some first ∧ first.tree = file.tree
  searched : ∀ (index : Nat) search, load.searches[index]? = some search → ∃ kept last,
    SearchedBesideLast system includeDirs (load.earlier system includeDirs paths roots index)
      (load.earlier system includeDirs paths roots load.searches.length) search kept last

theorem SearchedAfter.besideLast {system : FileSystem Id} {includeDirs : List String}
    {earlier all : List Selection} {search : Search Origins}
    (searched : SearchedAfter system includeDirs earlier search) (front : earlier <+: all)
    (read : ∀ selection ∈ earlier, system.readTree selection.jsonPath = .ok selection.tree) :
    ∃ kept last, SearchedBesideLast system includeDirs earlier all search kept last := by
  obtain ⟨kept, found, written⟩ := searched.written
  have member := List.mem_of_find?_eq_some found
  obtain ⟨last, last_found⟩ : ∃ last,
      earlier.reverse.find? (·.schemaPath == search.includer) = some last := by
    have same : kept.schemaPath = search.includer := by simpa using List.find?_some found
    refine Option.isSome_iff_exists.mp (List.find?_isSome.mpr ⟨kept, List.mem_reverse.mpr member, ?_⟩)
    exact beq_iff_eq.mpr same
  have directories : search.known.directories includeDirs search.includer =
      (Path.parent? last.jsonPath).toList ++ includeDirs := by
    rw [searched.known, Origins.directories, Origins.jsonPath?_ofSelections, last_found]
    rfl
  refine ⟨kept, last, ⟨found, ?_⟩, read kept member, written, last_found, directories, ?_, ?_⟩
  · obtain ⟨more, rfl⟩ := front
    rw [List.find?_append, found, Option.some_or]
  · rw [Origins.candidates, directories]
  · rw [directories, List.append_left_inj]
    cases Path.parent? kept.jsonPath <;> cases Path.parent? last.jsonPath <;> simp [eq_comm]

namespace FileSystem

/-- Includes are looked for next to the JSON file that was selected last for the including file. -/
theorem searchesBesideLast (system : FileSystem Id) (includeDirs : List String) (limit : Nat)
    (paths : List String) {roots : List FileTree} {origins : Origins}
    (read : system.readRoots paths .empty = .ok (roots, origins)) :
    SearchesBesideLast system includeDirs limit paths roots origins
      (system.diskLoad includeDirs limit roots origins) := by
  have loaded := system.load_eq includeDirs limit roots origins
  have traced := system.traced_diskLoad includeDirs limit read
  obtain ⟨each, _⟩ := readRoots_eq_ok_iff.mp read
  generalize system.diskLoad includeDirs limit roots origins = load at loaded traced ⊢
  constructor
  case loaded => exact loaded
  case trees =>
    rw [DiskLoad.earlier, List.take_length]
    exact traced.selected.trees
  case searched =>
    intro index search found
    refine (traced.each index search found).besideLast ?_ fun selection => readTree_of_mem each
    rw [DiskLoad.earlier, List.take_length]
    exact (List.prefix_append_right_inj _).mpr ((List.take_prefix index _).filterMap _)

/-- Two roots that declare the same path, and what the first one includes. -/
def twinRoots : FileSystem Id :=
  (Disk.ofTexts
    [(["x", "a.json"], (includingJson "a" ["b"]).compact),
      (["y", "a.json"], (includingJson "a" []).compact),
      (["x", "b.json"], (includingJson "b" []).compact)]).snapshot

/-- The JSON files of two roots that declare the same path. -/
def twinPaths : List String :=
  ["x/a.json", "y/a.json"]

/-- Only the first root includes anything. -/
def twinTrees : List FileTree :=
  [.including "a" ["b"], .including "a" []]

theorem readRoots_twinRoots : twinRoots.readRoots twinPaths .empty =
    .ok (twinTrees, .ofSelections (given twinPaths twinTrees)) := by
  have first : twinRoots.readTree "x/a.json" = .ok (.including "a" ["b"]) :=
    readTree_of_json (isText_includingJson "a" ["b"]) rfl rfl
  have second : twinRoots.readTree "y/a.json" = .ok (.including "a" []) :=
    readTree_of_json (isText_includingJson "a" []) rfl rfl
  exact twinRoots.readRoots_eq_ok (.cons first (.cons second .nil))

theorem searchesBesideLast_twinRoots :
    let origins := .ofSelections (given twinPaths twinTrees)
    twinRoots.readRoots twinPaths .empty = .ok (twinTrees, origins) ∧
      SearchesBesideLast twinRoots [] 1 twinPaths twinTrees origins
        (twinRoots.diskLoad [] 1 twinTrees origins) :=
  ⟨readRoots_twinRoots, searchesBesideLast twinRoots [] 1 twinPaths readRoots_twinRoots⟩

/-- The first root is kept, but what it includes is not looked for next to it. -/
theorem not_searchesBesideKept_twinRoots :
    let origins := .ofSelections (given twinPaths twinTrees)
    twinRoots.readRoots twinPaths .empty = .ok (twinTrees, origins) ∧
      ¬ (twinRoots.diskLoad [] 1 twinTrees origins).SearchesBesideKept twinRoots [] twinPaths
        twinTrees := by
  intro origins
  refine ⟨readRoots_twinRoots, fun beside => ?_⟩
  have asked : ((twinRoots.diskLoad [] 1 twinTrees origins).searches[0]?).map
      (fun search => (search.includer, search.known.directories [] search.includer)) =
        some ("a", ["y"]) := by
    decide +kernel
  obtain ⟨search, found, same⟩ := Option.map_eq_some_iff.mp asked
  obtain ⟨includer, directories⟩ := Prod.mk.inj same
  have kept := beside 0 search (.ofRoot "x/a.json" (.including "a" ["b"])) found
    (by rw [includer]; rfl)
  rw [directories] at kept
  revert kept
  decide +kernel

end FileSystem
end IdlSchema
