import IdlSchema.Disk.Origins
import IdlSchema.Proofs.Disk.FoldedPaths
import IdlSchema.Proofs.Files.IncludeClosure
import IdlSchema.Proofs.Files.LoadRuns
import IdlSchema.Proofs.Path.NormalPaths
import IdlSchema.Proofs.Tree.FileTexts

/-!
# Loads from disk, by the JSON files that were selected

A root and an include that is found each select a JSON file.  The selections so far, first to last,
determine what is known of the origins of files: the schema path of a JSON file is that of the first
selection of it, whereas the JSON path of a schema file is that of the last selection for it.

Three tables are kept while files are loaded from disk: the files with their trees, the JSON file of
each schema path, and the schema path of each JSON file.  All three can be told from the selections
so far: those of the roots, and those of the searches.
-/

namespace IdlSchema

/-- A JSON file that was read for a schema file, and its tree. -/
structure Selection where
  schemaPath : String
  jsonPath : String
  tree : FileTree

namespace Selection

/-- What an include is found to be if it selects a JSON file. -/
def found (selection : Selection) : ResolvedInclude :=
  { path := selection.schemaPath, tree := selection.tree }

/-- A root selects the JSON file that it is read from. -/
def ofRoot (path : String) (root : FileTree) : Selection :=
  { schemaPath := root.path, jsonPath := path, tree := root }

/-- All JSON files with a normal path are selected for one schema file. -/
def ConsistentAt (normal : String) (history : List Selection) : Prop :=
  ∀ selection ∈ history, ∀ other ∈ history, Path.normalize selection.jsonPath = normal →
    Path.normalize other.jsonPath = normal → selection.schemaPath = other.schemaPath

end Selection

namespace Origins

/-- What is known when some more files were selected. -/
def registerAll (origins : Origins) (history : List Selection) : Origins :=
  history.foldl (fun origins selection => origins.register selection.schemaPath selection.jsonPath)
    origins

/-- What is known of some selected files. -/
def ofSelections (history : List Selection) : Origins :=
  empty.registerAll history

/-- No schema path that is known for a JSON file changes. -/
def Keeps (before after : Origins) : Prop :=
  ∀ jsonPath schemaPath, before.schemaPath? jsonPath = some schemaPath →
    after.schemaPath? jsonPath = some schemaPath

theorem ofSelections_concat (history : List Selection) (selection : Selection) :
    ofSelections (history ++ [selection]) =
      (ofSelections history).register selection.schemaPath selection.jsonPath :=
  List.foldl_concat ..

theorem ofSelections_append (history more : List Selection) :
    ofSelections (history ++ more) = (ofSelections history).registerAll more :=
  List.foldl_append

/-- The first selection of a JSON file decides on its schema path. -/
theorem schemaPath?_ofSelections (history : List Selection) (jsonPath : String) :
    (ofSelections history).schemaPath? jsonPath =
      (history.find? (Path.normalize ·.jsonPath == jsonPath)).map (·.schemaPath) := by
  induction history using List.reverseRecOn with
  | nil => rfl
  | append_singleton history selection induction =>
      rw [schemaPath?] at induction ⊢
      rw [ofSelections_concat, register, List.lookup_append, induction, List.find?_append]
      cases history.find? (Path.normalize ·.jsonPath == jsonPath) with
      | some first => rfl
      | none =>
          rw [List.find?_singleton, List.lookup_cons, List.lookup_nil, BEq.comm]
          cases Path.normalize selection.jsonPath == jsonPath <;> rfl

/-- The last selection for a schema file decides on its JSON path. -/
theorem jsonPath?_ofSelections (history : List Selection) (schemaPath : String) :
    (ofSelections history).jsonPath? schemaPath =
      (history.reverse.find? (·.schemaPath == schemaPath)).map (·.jsonPath) := by
  induction history using List.reverseRecOn with
  | nil => rfl
  | append_singleton history selection induction =>
      rw [jsonPath?] at induction ⊢
      rw [ofSelections_concat, register, List.lookup_cons, induction, List.reverse_concat,
        List.find?_cons, BEq.comm]
      cases selection.schemaPath == schemaPath <;> rfl

theorem keeps_ofSelections {earlier later : List Selection} (front : earlier <+: later) :
    (ofSelections earlier).Keeps (ofSelections later) := by
  intro jsonPath schemaPath known
  obtain ⟨more, rfl⟩ := front
  rw [schemaPath?_ofSelections] at known ⊢
  obtain ⟨first, found, same⟩ := Option.map_eq_some_iff.mp known
  rw [List.find?_append, found, ← same]
  rfl

end Origins

namespace Selection

/-- The schema path that is known for a JSON file is that of all selections of it. -/
theorem ConsistentAt.schemaPath? {history : List Selection} {selection : Selection}
    (consistent : ConsistentAt (Path.normalize selection.jsonPath) history)
    (member : selection ∈ history) :
    (Origins.ofSelections history).schemaPath? (Path.normalize selection.jsonPath) =
      some selection.schemaPath := by
  rw [Origins.schemaPath?_ofSelections]
  cases found : history.find? (Path.normalize ·.jsonPath == Path.normalize selection.jsonPath) with
  | none =>
      have differ := List.find?_eq_none.mp found selection member
      exact absurd (beq_self_eq_true _) differ
  | some first =>
      have first_mem := List.mem_of_find?_eq_some found
      have same : Path.normalize first.jsonPath = Path.normalize selection.jsonPath := by
        simpa only [beq_iff_eq] using List.find?_some found
      rw [Option.map_some, consistent first first_mem selection member same rfl]

/-- A JSON file with a normal path may be selected for the schema file that is known for it. -/
theorem ConsistentAt.concat {normal : String} {history : List Selection}
    (consistent : ConsistentAt normal history) {selection : Selection}
    (is_normal : Path.normalize selection.jsonPath = selection.jsonPath)
    (known : selection.schemaPath = ((Origins.ofSelections history).schemaPath?
      selection.jsonPath).getD selection.jsonPath) :
    ConsistentAt normal (history ++ [selection]) := by
  have agrees : ∀ other ∈ history, Path.normalize other.jsonPath = normal →
      Path.normalize selection.jsonPath = normal →
        other.schemaPath = selection.schemaPath := by
    rintro other member rfl same
    rw [known, ← is_normal, same, consistent.schemaPath? member, Option.getD_some]
  intro one member other member' same same'
  rcases List.mem_append.mp member with old | new
  · rcases List.mem_append.mp member' with old' | new'
    · exact consistent one old other old' same same'
    · obtain rfl := List.mem_singleton.mp new'
      exact agrees one old same same'
  · obtain rfl := List.mem_singleton.mp new
    rcases List.mem_append.mp member' with old' | new'
    · exact (agrees other old' same' same).symm
    · rw [List.mem_singleton.mp new']

end Selection

/-! ## Where includes are looked for -/

namespace Path

theorem isName_append_json {text : String} (plain : '/' ∉ text.toList) :
    IsName (text ++ ".json") := by
  have last : (text ++ ".json").toList.getLast? = some 'n' := by simp
  constructor
  case plain => simp [plain]
  all_goals
    intro same
    rw [same] at last
    simp at last

/-- What stands behind the last slash of a normal path may get longer. -/
theorem IsNormal.append_json {path : String} (normal : IsNormal path) :
    IsNormal (path ++ ".json") := by
  obtain ⟨up, names, named, same⟩ := normal
  have longer : ∃ up' names', (∀ name ∈ names', IsName name) ∧
      "/".intercalate (List.replicate up ".." ++ names) ++ ".json" =
        "/".intercalate (List.replicate up' ".." ++ names') := by
    cases names using List.reverseRecOn with
    | append_singleton names name =>
        obtain ⟨earlier, last⟩ := List.forall_mem_append.mp named
        have last' := isName_append_json (last name (List.mem_singleton_self _)).plain
        refine ⟨up, names ++ [name ++ ".json"], ?_, ?_⟩
        · exact List.forall_mem_append.mpr ⟨earlier, List.forall_mem_singleton.mpr last'⟩
        · rw [← List.append_assoc, intercalate_concat_append, List.append_assoc]
    | nil =>
        cases up with
        | zero =>
            have name : IsName ("" ++ ".json") := isName_append_json (by simp)
            exact ⟨0, ["" ++ ".json"], List.forall_mem_singleton.mpr name, rfl⟩
        | succ up =>
            have name : IsName (".." ++ ".json") := isName_append_json (by decide)
            refine ⟨up, [".." ++ ".json"], List.forall_mem_singleton.mpr name, ?_⟩
            rw [List.replicate_succ', List.append_nil, intercalate_concat_append]
  have text (up : Nat) {names : List String} (named : ∀ name ∈ names, IsName name) :
      ofComponents (normalForm (isAbsolute path) up names) =
        (if isAbsolute path then "/" else "") ++
          "/".intercalate (List.replicate up ".." ++ names) := by
    rw [normalForm, ofComponents_eq _ (isStep_of_mem_normalForm named)]
    simp [Component.text, Function.comp_def]
  have absolute : isAbsolute (path ++ ".json") = isAbsolute path := by
    by_cases empty : path = ""
    · rw [empty]
      decide +kernel
    · exact isAbsolute_append empty ".json"
  obtain ⟨up', names', named', same'⟩ := longer
  refine ⟨up', names', named', ?_⟩
  rw [absolute, text up' named', ← same', ← String.append_assoc, ← text up named, ← same]

end Path

theorem Origins.isNormal_of_mem_candidates {origins : Origins} {includeDirs : List String}
    {includer written path : String}
    (member : path ∈ origins.candidates includeDirs includer written) : Path.IsNormal path := by
  obtain ⟨directory, _, member⟩ := List.mem_flatMap.mp member
  have normal := Path.isNormal_normalize (Path.join directory written)
  rcases List.mem_cons.mp member with rfl | member
  · exact normal.append_json
  · rw [List.mem_singleton.mp member]
    exact normal

namespace FileSystem

variable (system : FileSystem Id)

/-- The selection of an include, if a JSON file is found that holds a tree. -/
def select? (includeDirs : List String) (origins : Origins) (includer written : String) :
    Option Selection :=
  match system.firstFile? (origins.candidates includeDirs includer written) with
  | none => none
  | some path =>
      match system.readTree path with
      | .error _ => none
      | .ok tree => some
          { schemaPath := (origins.schemaPath? path).getD path, jsonPath := path, tree }

variable {system}

theorem mem_of_firstFile? {paths : List String} {path : String}
    (found : system.firstFile? paths = some path) : path ∈ paths := by
  induction paths with
  | nil => cases found
  | cons first paths induction =>
      change (if Id.run (system.isFile first) then some first else system.firstFile? paths) = _
        at found
      split at found
      · exact Option.some.inj found ▸ List.mem_cons_self
      · exact .tail _ (induction found)

theorem readTree_eq (path : String) : system.readTree path =
    match system.read path with
    | .error failure => .error (.unreadable path failure)
    | .ok text =>
        match FileTree.ofText? text with
        | some tree => .ok tree
        | none => .error (.malformed path) := by
  dsimp only [readTree, bind]
  cases system.read path with
  | error failure => rfl
  | ok text => cases FileTree.ofText? text <;> rfl

variable {includeDirs : List String} {origins : Origins} {includer written : String}

/-- A search finds what it selects, and registers it. -/
theorem findInclude_eq : system.findInclude includeDirs includer written origins =
    ((system.select? includeDirs origins includer written).map Selection.found,
      origins.registerAll (system.select? includeDirs origins includer written).toList) := by
  rw [findInclude, select?]
  change (match system.firstFile? (origins.candidates includeDirs includer written) with
    | none => pure none
    | some path => _ : StateT Origins Id (Option ResolvedInclude)) origins = _
  cases system.firstFile? (origins.candidates includeDirs includer written) with
  | none => rfl
  | some path =>
      change (match system.readTree path with
        | .error _ => pure none
        | .ok tree => _ : StateT Origins Id (Option ResolvedInclude)) origins = _
      dsimp only
      cases system.readTree path <;> rfl

theorem select?_eq_some {selection : Selection}
    (selected : system.select? includeDirs origins includer written = some selection) :
    Path.IsNormal selection.jsonPath ∧
      selection.schemaPath = (origins.schemaPath? selection.jsonPath).getD selection.jsonPath ∧
      system.readTree selection.jsonPath = .ok selection.tree := by
  rw [select?] at selected
  split at selected
  · cases selected
  · rename_i path found
    split at selected
    · cases selected
    · rename_i tree read
      obtain rfl := Option.some.inj selected
      exact ⟨Origins.isNormal_of_mem_candidates (mem_of_firstFile? found), rfl, read⟩

/-- The roots that are read are those of their JSON files, and they are registered in order. -/
theorem readRoots_eq_ok_iff {paths : List String} {roots : List FileTree} {after : Origins} :
    system.readRoots paths origins = .ok (roots, after) ↔
      List.Forall₂ (fun path root => system.readTree path = .ok root) paths roots ∧
        after = origins.registerAll (List.zipWith Selection.ofRoot paths roots) := by
  induction paths generalizing origins roots with
  | nil =>
      have read : system.readRoots [] origins = .ok ([], origins) := rfl
      rw [read]
      constructor
      · rintro ⟨rfl, rfl⟩
        exact ⟨.nil, rfl⟩
      · rintro ⟨⟨⟩, rfl⟩
        rfl
  | cons path paths induction =>
      dsimp only [readRoots, bind, pure]
      constructor
      · intro read
        split at read
        · cases read
        · rename_i tree first
          split at read
          · cases read
          · rename_i others behind rest
            obtain ⟨rfl, rfl⟩ := read
            obtain ⟨all, rfl⟩ := induction.mp rest
            exact ⟨.cons first all, rfl⟩
      · rintro ⟨all, rfl⟩
        cases all with
        | cons first all =>
            rename_i tree trees
            have rest : system.readRoots paths (origins.register tree.path path) =
                .ok (trees, _) := induction.mpr ⟨all, rfl⟩
            rw [first]
            dsimp only
            rw [rest]

end FileSystem
end IdlSchema

/-! # Loads from disk, search by search -/

namespace IdlSchema

/-! ## Files of some selections -/

/-- The files are those that were selected, each with the tree that was selected for it first. -/
structure FileTable.Selected (files : FileTable) (history : List Selection) : Prop where
  nodup : files.paths.Nodup
  trees : ∀ file ∈ files.files,
    ∃ first, history.find? (·.schemaPath == file.path) = some first ∧ first.tree = file.tree
  kept : ∀ selection ∈ history, ∃ id : FileId, id.index < files.size ∧
    files.path id = selection.schemaPath

namespace FileTable.Selected

variable {files : FileTable} {history : List Selection}

theorem empty : FileTable.empty.Selected [] where
  nodup := .nil
  trees _ member := absurd member List.not_mem_nil
  kept _ member := absurd member List.not_mem_nil

/-- The file of a selection is added, unless there is one with its path. -/
theorem add (selected : files.Selected history) (selection : Selection) :
    (FileTable.add selection.schemaPath selection.tree files).2.Selected
      (history ++ [selection]) where
  nodup := (files.added_add selection.schemaPath selection.tree).nodup selected.nodup
  trees file member := by
    have earlier (old : file ∈ files.files) :
        ∃ first, (history ++ [selection]).find? (·.schemaPath == file.path) = some first ∧
          first.tree = file.tree := by
      obtain ⟨first, found, tree⟩ := selected.trees file old
      exact ⟨first, by rw [List.find?_append, found, Option.some_or], tree⟩
    rcases files.add_cases selection.schemaPath selection.tree with ⟨_, _, same⟩ | ⟨unused, same⟩
    · rw [same] at member
      exact earlier member
    · rw [same] at member
      rcases List.mem_append.mp member with old | new
      · exact earlier old
      · obtain rfl := List.mem_singleton.mp new
        -- The path is not in the table, so nothing was selected for it before.
        have new_path : history.find? (·.schemaPath == selection.schemaPath) = none := by
          refine List.find?_eq_none.mpr fun other member same => ?_
          obtain ⟨id, inside, path⟩ := selected.kept other member
          have found := lookup_path selected.nodup inside
          rw [path, eq_of_beq same, unused] at found
          cases found
        exact ⟨selection, by simp [List.find?_append, new_path], rfl⟩
  kept other member := by
    have added := files.added_add selection.schemaPath selection.tree
    rcases List.mem_append.mp member with old | new
    · obtain ⟨id, inside, path⟩ := selected.kept other old
      exact ⟨id, added.grows.lt_size inside, (added.grows.path_eq inside).trans path⟩
    · rw [List.mem_singleton.mp new]
      exact ⟨_, added.inside, added.path_eq⟩

/-- That one file includes another changes nothing. -/
theorem addInclude (selected : files.Selected history) (source target : FileId) :
    (files.addInclude source target).Selected history where
  nodup := by
    rw [paths_addInclude]
    exact selected.nodup
  trees file member := by
    obtain ⟨index, found⟩ := List.mem_iff_getElem?.mp member
    have changed := files.get?_addInclude source target ⟨index⟩
    rw [get?, found] at changed
    obtain ⟨file', found', same⟩ := Option.map_eq_some_iff.mp changed.symm
    obtain ⟨first, first_found, tree⟩ := selected.trees file' (List.mem_of_getElem? found')
    have kept : file.path = file'.path ∧ file.tree = file'.tree := by
      rw [← same]
      split <;> exact ⟨rfl, rfl⟩
    exact ⟨first, kept.1 ▸ first_found, tree.trans kept.2.symm⟩
  kept selection member := by
    obtain ⟨id, inside, path⟩ := selected.kept selection member
    have grows := files.grows_addInclude source target
    exact ⟨id, grows.lt_size inside, (grows.path_eq inside).trans path⟩

/-- Roots are selected in order. -/
theorem addRoots {paths : List String} {roots : List FileTree} (selected : files.Selected history)
    (each : paths.length = roots.length) :
    (IncludeWalk.addRoots roots files).2.Selected
      (history ++ List.zipWith Selection.ofRoot paths roots) := by
  induction roots generalizing files history paths with
  | nil =>
      rw [List.zipWith_nil_right, List.append_nil]
      exact selected
  | cons root roots induction =>
      cases paths with
      | nil => cases each
      | cons path paths =>
          rw [IncludeWalk.addRoots, mapM_cons_apply, List.zipWith_cons_cons, List.append_cons]
          exact induction (selected.add (.ofRoot path root)) (Nat.succ.inj each)

end FileTable.Selected

/-! ## What a load knows -/

/-- The search for an include as it is made when the origins of some files are known. -/
def FileSystem.searchFor (system : FileSystem Id) (includeDirs : List String) (origins : Origins)
    (includer written : String) : Search Origins :=
  { known := origins, includer, written
    found? := (system.select? includeDirs origins includer written).map Selection.found }

/-- The JSON file that a search selected, if it found one. -/
def Search.selection? (search : Search Origins) (system : FileSystem Id)
    (includeDirs : List String) : Option Selection :=
  system.select? includeDirs search.known search.includer search.written

/-- The JSON file that a search came to, whatever it holds. -/
def Search.jsonPath? (search : Search Origins) (system : FileSystem Id)
    (includeDirs : List String) : Option String :=
  system.firstFile? (search.known.candidates includeDirs search.includer search.written)

theorem Search.jsonPath?_of_selection? {search : Search Origins} {system : FileSystem Id}
    {includeDirs : List String} {selection : Selection}
    (selected : search.selection? system includeDirs = some selection) :
    search.jsonPath? system includeDirs = some selection.jsonPath := by
  rw [selection?, FileSystem.select?] at selected
  rw [jsonPath?]
  split at selected
  · cases selected
  · rename_i path found
    rw [found]
    split at selected
    · cases selected
    · rw [← Option.some.inj selected]

/-- A search selects the JSON file that it came to if that holds a tree. -/
theorem Search.exists_selection? {search : Search Origins} {system : FileSystem Id}
    {includeDirs : List String} {jsonPath : String} {tree : FileTree}
    (came : search.jsonPath? system includeDirs = some jsonPath)
    (read : system.readTree jsonPath = .ok tree) :
    ∃ selection, search.selection? system includeDirs = some selection ∧
      selection.jsonPath = jsonPath := by
  rw [jsonPath?] at came
  rw [selection?, FileSystem.select?, came]
  dsimp only
  rw [read]
  exact ⟨_, rfl, rfl⟩

/-- The selections of some searches, in order. -/
def selections (system : FileSystem Id) (includeDirs : List String)
    (searches : List (Search Origins)) : List Selection :=
  searches.filterMap (·.selection? system includeDirs)

theorem selections_concat {system : FileSystem Id} {includeDirs : List String}
    {searches : List (Search Origins)} (search : Search Origins) :
    selections system includeDirs (searches ++ [search]) =
      selections system includeDirs searches ++ (search.selection? system includeDirs).toList := by
  rw [selections, List.filterMap_append]
  cases found : search.selection? system includeDirs <;> simp [selections, found]

/-- A search for what the tree that was selected first for a file writes, after some selections. -/
structure SearchedAfter (system : FileSystem Id) (includeDirs : List String)
    (earlier : List Selection) (search : Search Origins) : Prop where
  known : search.known = .ofSelections earlier
  found : search.found? = (search.selection? system includeDirs).map Selection.found
  written : ∃ first, earlier.find? (·.schemaPath == search.includer) = some first ∧
    ∃ directive ∈ first.tree.includes, directive.path = search.written

/-- A search has answered a directive of a file with the file that it selected, if there is one. -/
structure Search.Answers (search : Search Origins) (system : FileSystem Id)
    (includeDirs : List String) (files : FileTable) (source : FileId) (target? : Option FileId) :
    Prop where
  inside : source.index < files.size
  includer : files.path source = search.includer
  selected : ∀ selection, search.selection? system includeDirs = some selection →
    ∃ id : FileId, target? = some id ∧ id.index < files.size ∧
      files.path id = selection.schemaPath
  /-- Where nothing is selected, a file with the written path will do. -/
  missed : search.selection? system includeDirs = none → ∀ id : FileId, target? = some id →
    id.index < files.size ∧ files.path id = search.written

theorem Search.Answers.grows {search : Search Origins} {system : FileSystem Id}
    {includeDirs : List String} {before after : FileTable} {source : FileId}
    {target? : Option FileId} (grows : before.Grows after)
    (answers : search.Answers system includeDirs before source target?) :
    search.Answers system includeDirs after source target? where
  inside := grows.lt_size answers.inside
  includer := (grows.path_eq answers.inside).trans answers.includer
  selected selection selected := by
    obtain ⟨id, same, inside, path⟩ := answers.selected selection selected
    exact ⟨id, same, grows.lt_size inside, (grows.path_eq inside).trans path⟩
  missed absent id same := by
    obtain ⟨inside, path⟩ := answers.missed absent id same
    exact ⟨grows.lt_size inside, (grows.path_eq inside).trans path⟩

/-- What a load knows is what its roots and searches have selected. -/
structure Traced (system : FileSystem Id) (includeDirs : List String) (given : List Selection)
    (known : LoadState × (Origins × List (Search Origins))) : Prop where
  selected : known.1.files.Selected (given ++ selections system includeDirs known.2.2)
  origins : known.2.1 = .ofSelections (given ++ selections system includeDirs known.2.2)
  each : ∀ index search, known.2.2[index]? = some search →
    SearchedAfter system includeDirs
      (given ++ selections system includeDirs (known.2.2.take index)) search
  /-- No search is made twice, and each has its answer. -/
  answered : ∀ search ∈ known.2.2, ∃ source target?,
    known.1.answers.lookup (source, search.written) = some target? ∧
      search.Answers system includeDirs known.1.files source target?
  /-- No directive is answered without a search. -/
  asked : ∀ source written target?, known.1.answers.lookup (source, written) = some target? →
    source.index < known.1.files.size ∧
    ∃ search ∈ known.2.2, search.includer = known.1.files.path source ∧ search.written = written

namespace Traced

variable {system : FileSystem Id} {includeDirs : List String} {given : List Selection}
  {state : LoadState} {origins : Origins} {searches : List (Search Origins)}

/-- Files may grow as long as they stay those that were selected. -/
theorem of_grows {after : LoadState} (traced : Traced system includeDirs given (state, origins, searches))
    (grows : state.files.Grows after.files)
    (selected : after.files.Selected (given ++ selections system includeDirs searches))
    (answers : after.answers = state.answers) :
    Traced system includeDirs given (after, origins, searches) where
  selected := selected
  origins := traced.origins
  each := traced.each
  answered search member := by
    obtain ⟨source, target?, answer, found⟩ := traced.answered search member
    exact ⟨source, target?, answers ▸ answer, found.grows grows⟩
  asked source written target? answer := by
    obtain ⟨inside, asked⟩ := traced.asked source written target? (answers ▸ answer)
    rw [grows.path_eq inside]
    exact ⟨grows.lt_size inside, asked⟩

section

variable {source : FileId} {directive : IncludeDecl} {search : Search Origins}
  (found : search.found? = (search.selection? system includeDirs).map Selection.found)

include found

theorem selected_settle {history : List Selection} (selected : state.files.Selected history) :
    (state.settle directive search.found?).2.Selected
      (history ++ (search.selection? system includeDirs).toList) := by
  rw [found]
  cases search.selection? system includeDirs with
  | none =>
      rw [Option.toList_none, List.append_nil]
      exact selected
  | some selection => exact selected.add selection

theorem grows_settle : state.files.Grows (state.settle directive search.found?).2 := by
  rw [found]
  cases search.selection? system includeDirs with
  | none => exact .refl _
  | some selection => exact (state.files.added_add selection.schemaPath selection.tree).grows

theorem answers_settle (inside : source.index < state.files.size)
    (includer : search.includer = state.files.path source)
    (written : search.written = directive.path) :
    search.Answers system includeDirs (state.settle directive search.found?).2 source
      (state.settle directive search.found?).1 := by
  have grows : state.files.Grows (state.settle directive search.found?).2 := grows_settle found
  constructor
  case inside => exact grows.lt_size inside
  case includer => exact (grows.path_eq inside).trans includer.symm
  case selected =>
    intro selection selected
    have added := state.files.added_add selection.schemaPath selection.tree
    rw [found, selected]
    exact ⟨_, rfl, added.inside, added.path_eq⟩
  case missed =>
    intro absent id same
    rw [found, absent] at same ⊢
    rw [written]
    exact FileTable.exists_of_lookup same

variable (search) in
/-- A search that is made is traced. -/
theorem searched (traced : Traced system includeDirs given (state, origins, searches))
    (member : directive ∈ state.files.directives source)
    (new : state.answers.lookup (source, directive.path) = none)
    (known : search.known = origins) (includer : search.includer = state.files.path source)
    (written : search.written = directive.path) :
    Traced system includeDirs given
      (state.answered source directive search.found?,
        origins.registerAll (search.selection? system includeDirs).toList,
        searches ++ [search]) := by
  have grows : state.files.Grows (state.settle directive search.found?).2 := grows_settle found
  obtain ⟨file, file_found⟩ : ∃ file, state.files.get? source = some file := by
    cases file_found : state.files.get? source with
    | none => simp [FileTable.directives, file_found] at member
    | some file => exact ⟨file, rfl⟩
  have inside := FileTable.get?_eq_some_iff.mp ⟨file, file_found⟩
  constructor
  case selected =>
    rw [selections_concat, ← List.append_assoc]
    exact selected_settle found traced.selected
  case origins =>
    rw [selections_concat, ← List.append_assoc, Origins.ofSelections_append, ← traced.origins]
  case each =>
    intro index other at_index
    rcases Nat.lt_or_ge index searches.length with old | last
    · rw [List.getElem?_append_left old] at at_index
      rw [List.take_append_of_le_length old.le]
      exact traced.each index other at_index
    · obtain rfl : index = searches.length := by
        have bound := (List.getElem?_eq_some_iff.mp at_index).1
        rw [List.length_append, List.length_singleton] at bound
        omega
      rw [List.getElem?_concat_length] at at_index
      obtain rfl := Option.some.inj at_index
      rw [List.take_left]
      obtain ⟨first, first_found, tree⟩ :=
        traced.selected.trees file (List.mem_of_getElem? file_found)
      refine ⟨known.trans traced.origins, found, first, ?_, directive, ?_, written.symm⟩
      · rw [includer, FileTable.path, file_found]
        exact first_found
      · rw [tree]
        simpa [FileTable.directives, file_found] using member
  case answered =>
    intro other other_mem
    rcases List.mem_append.mp other_mem with old | last
    · obtain ⟨source', target?, answer, answers⟩ := traced.answered other old
      have differ : (source', other.written) ≠ (source, directive.path) := fun same => by
        rw [same, new] at answer
        cases answer
      refine ⟨source', target?, ?_, answers.grows grows⟩
      exact (state.lookup_answered_of_ne source directive _ differ).trans answer
    · obtain rfl := List.mem_singleton.mp last
      refine ⟨source, _, ?_, answers_settle found inside includer written⟩
      rw [written]
      exact state.lookup_answered_self source directive _
  case asked =>
    intro source' written' target? answer
    by_cases same : (source', written') = (source, directive.path)
    · obtain ⟨rfl, rfl⟩ := Prod.mk.inj same
      refine ⟨grows.lt_size inside, search, List.mem_append_right _ List.mem_cons_self, ?_, written⟩
      exact includer.trans (grows.path_eq inside).symm
    · have old := (state.lookup_answered_of_ne source directive search.found? same).symm.trans answer
      obtain ⟨inside', other, other_mem, path, asked⟩ := traced.asked source' written' target? old
      refine ⟨grows.lt_size inside', other, List.mem_append_left _ other_mem, ?_, asked⟩
      exact path.trans (grows.path_eq inside').symm

end

theorem noted_resolve (includer written : String) :
    (system.resolver includeDirs).noted.resolve includer written (origins, searches) =
      ((system.searchFor includeDirs origins includer written).found?,
        origins.registerAll ((system.searchFor includeDirs origins includer written).selection?
          system includeDirs).toList,
        searches ++ [system.searchFor includeDirs origins includer written]) := by
  simp only [IncludeResolver.noted, FileSystem.resolver, FileSystem.findInclude_eq]
  rfl

/-- Each step of a load is traced. -/
theorem step {before after : LoadState × (Origins × List (Search Origins))}
    (traced : Traced system includeDirs given before)
    (step : LoadStep (system.resolver includeDirs).noted before after) :
    Traced system includeDirs given after := by
  cases step with
  | enter | report => exact traced.of_grows (.refl _) traced.selected rfl
  | link source target =>
      exact traced.of_grows (FileTable.grows_addInclude _ source target)
        (traced.selected.addInclude source target) rfl
  | @search state known source directive member new =>
      obtain ⟨origins, searches⟩ := known
      rw [noted_resolve]
      exact traced.searched (system.searchFor ..) rfl member new rfl rfl rfl

theorem run {before after : LoadState × (Origins × List (Search Origins))}
    (traced : Traced system includeDirs given before)
    (run : LoadRun (system.resolver includeDirs).noted before after) :
    Traced system includeDirs given after := by
  induction run with
  | refl => exact traced
  | tail _ step induction => exact induction.step step

/-- Some roots are traced as they are given. -/
theorem start (system : FileSystem Id) (includeDirs : List String) {paths : List String}
    {roots : List FileTree} (each : paths.length = roots.length) :
    Traced system includeDirs (List.zipWith Selection.ofRoot paths roots)
      (Loading.rooted roots,
        .ofSelections (List.zipWith Selection.ofRoot paths roots), []) where
  selected := by
    rw [selections, List.filterMap_nil, List.append_nil]
    exact FileTable.Selected.empty.addRoots each
  origins := by rw [selections, List.filterMap_nil, List.append_nil]
  each index search found := by cases found
  answered search member := absurd member List.not_mem_nil
  asked source written target? answer := by cases answer

/-- What is selected for JSON files with a normal path is consistent if it is so for the roots. -/
theorem consistent_selections {known : LoadState × (Origins × List (Search Origins))}
    (traced : Traced system includeDirs given known) {normal : String}
    (start : Selection.ConsistentAt normal given) :
    Selection.ConsistentAt normal (given ++ selections system includeDirs known.2.2) := by
  suffices upto : ∀ count, Selection.ConsistentAt normal
      (given ++ selections system includeDirs (known.2.2.take count)) by
    simpa using upto known.2.2.length
  intro count
  induction count with
  | zero => simpa [selections] using start
  | succ count induction =>
      rw [List.take_add_one]
      cases last : known.2.2[count]? with
      | none => simpa using induction
      | some search =>
          rw [Option.toList_some, selections_concat, ← List.append_assoc]
          cases selected : search.selection? system includeDirs with
          | none => simpa using induction
          | some selection =>
              rw [Search.selection?, (traced.each count search last).known] at selected
              obtain ⟨is_normal, path, _⟩ := FileSystem.select?_eq_some selected
              exact induction.concat is_normal.normalize_eq path

end Traced

/-! ## A load from start to end -/

/-- What is known when a load is done, and the searches that it made. -/
structure DiskLoad where
  state : LoadState
  origins : Origins
  searches : List (Search Origins)

namespace FileSystem

/-- The selections of some roots that were read. -/
def given (paths : List String) (roots : List FileTree) : List Selection :=
  List.zipWith Selection.ofRoot paths roots

variable (system : FileSystem Id) (includeDirs : List String) (limit : Nat)

/-- A load of some roots, with its searches. -/
def diskLoad (roots : List FileTree) (origins : Origins) : DiskLoad :=
  let ((), state, origins, searches) :=
    (Loading.load (system.resolver includeDirs).noted limit roots).whole (.initial, origins, [])
  { state, origins, searches }

/-- The searches are those of the load that keeps no list of them. -/
theorem load_eq (roots : List FileTree) (origins : Origins) :
    (FileTable.load (system.resolver includeDirs) limit roots).run origins =
      let load := system.diskLoad includeDirs limit roots origins
      ((load.state.files, load.state.reported), load.origins) := by
  have same : (Loading.load (system.resolver includeDirs) limit roots).whole (.initial, origins) = _ :=
    (Loading.forgets_load (system.resolver includeDirs) limit roots).apply (.initial, origins, [])
  have run : (FileTable.load (system.resolver includeDirs) limit roots).run origins =
      let result :=
        ((Loading.load (system.resolver includeDirs) limit roots).whole (.initial, origins)).2
      ((result.1.files, result.1.reported), result.2) :=
    rfl
  rw [run, same]
  rfl

variable {paths : List String} {roots : List FileTree} {origins : Origins}

theorem readRoots_eq_ok (each : List.Forall₂ (fun path root => system.readTree path = .ok root)
    paths roots) : system.readRoots paths .empty = .ok (roots, .ofSelections (given paths roots)) :=
  readRoots_eq_ok_iff.mpr ⟨each, rfl⟩

theorem traced_diskLoad (read : system.readRoots paths .empty = .ok (roots, origins)) :
    let load := system.diskLoad includeDirs limit roots origins
    Traced system includeDirs (given paths roots) (load.state, load.origins, load.searches) := by
  obtain ⟨each, rfl⟩ := readRoots_eq_ok_iff.mp read
  exact (Traced.start system includeDirs each.length_eq).run (Loading.run_load _ limit roots _)

end FileSystem

/-! ## Small disks -/

/-- Include directives at the start of a file. -/
def directives (path : String) (includes : List String) : List IncludeDecl :=
  includes.map fun written => { location := .start path, path := written }

/-- A file with nothing but include directives. -/
def FileTree.including (path : String) (includes : List String) : FileTree :=
  { FileTree.empty path with includes := directives path includes }

/-- What a JSON file for a file with include directives may hold. -/
def includingJson (path : String) (includes : List String) : Json :=
  .object [("location", Encode.location (.start path)),
    ("includes", Encode.list Encode.inclusion (directives path includes))]

/-- A disk with nothing but some files and the directories they are in. -/
def Disk.ofTexts (files : List (Trail × String)) : Disk :=
  { files, directories := files.map fun (trail, _) => trail.dropLast }

theorem FileSystem.readTree_of_json {system : FileSystem Id} {path : String} {json : Json}
    {tree : FileTree} (text : json.IsText) (read : system.read path = .ok json.compact)
    (decoded : FileTree.ofJson? json = some tree) : system.readTree path = .ok tree := by
  rw [readTree_eq, read]
  dsimp only
  rw [FileTree.ofText?, Json.read_compact text]
  dsimp only
  rw [decoded]

theorem isText_includingJson (path : String) (includes : List String) :
    (includingJson path includes).IsText :=
  .object (List.forall_mem_cons.mpr ⟨Encode.isText_location _,
    List.forall_mem_singleton.mpr (Encode.isText_list Encode.isText_inclusion _)⟩)

end IdlSchema
