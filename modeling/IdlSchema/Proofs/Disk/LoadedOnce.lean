import IdlSchema.Proofs.Disk.FoldedPaths
import IdlSchema.Proofs.Disk.TracedLoads

/-!
# One file of a schema for each JSON file

A file system is a fixed map from paths to texts, whatever the paths stand for.  Roots are registered
under the paths that they declare, and an include under the path that its JSON file was given before.
So all JSON files with one normal path that hold trees lead to the same file of the schema, if and only
if the roots among them declare the same path.  They do as long as what can be read at a path can be
read at its normal form; on a disk, which has no links, that is always so.
-/

namespace IdlSchema

namespace DiskLoad

variable (load : DiskLoad) (system : FileSystem Id) (includeDirs paths : List String)
  (roots : List FileTree)

/-- A root or an include, whatever its JSON file holds, leads to a file of the schema. -/
inductive Refers : String → FileId → Prop
  | root {index : Nat} {jsonPath : String} {id : FileId} : paths[index]? = some jsonPath →
      (IncludeWalk.addRoots roots .empty).1[index]? = some id → Refers jsonPath id
  | found {search : Search Origins} {jsonPath : String} {source id : FileId} :
      search ∈ load.searches → search.jsonPath? system includeDirs = some jsonPath →
      load.state.files.path source = search.includer →
      load.state.answers.lookup (source, search.written) = some (some id) → Refers jsonPath id

/-- JSON files with the same normal path lead to the same file, whatever they hold. -/
def OncePerPath : Prop :=
  ∀ jsonPath jsonPath' id id', Path.normalize jsonPath = Path.normalize jsonPath' →
    load.Refers system includeDirs paths roots jsonPath id →
    load.Refers system includeDirs paths roots jsonPath' id' → id = id'

/-- JSON files that hold trees and have a normal path lead to the same file. -/
def OnceAt (normal : String) : Prop :=
  ∀ jsonPath jsonPath' tree tree' id id', Path.normalize jsonPath = normal →
    Path.normalize jsonPath' = normal → system.readTree jsonPath = .ok tree →
    system.readTree jsonPath' = .ok tree' → load.Refers system includeDirs paths roots jsonPath id →
    load.Refers system includeDirs paths roots jsonPath' id' → id = id'

end DiskLoad

/-- Each JSON file that roots and includes lead to is one file of the schema. -/
structure LoadsOnce (system : FileSystem Id) (includeDirs : List String) (limit : Nat)
    (paths : List String) (roots : List FileTree) (origins : Origins) (load : DiskLoad) : Prop where
  /-- The searches are those of the program. -/
  loaded : (FileTable.load (system.resolver includeDirs) limit roots).run origins =
    ((load.state.files, load.state.reported), load.origins)
  /-- What is known after some of the roots. -/
  known_roots : ∀ count, system.readRoots (paths.take count) .empty =
    .ok (roots.take count, .ofSelections ((FileSystem.given paths roots).take count))
  /-- What is known before each search. -/
  known_searches : ∀ (index : Nat) search, load.searches[index]? = some search →
    search.known = .ofSelections (FileSystem.given paths roots ++
      selections system includeDirs (load.searches.take index))
  /-- What is known in the end. -/
  known : load.origins = .ofSelections (FileSystem.given paths roots ++
    selections system includeDirs load.searches)
  /-- What is known of a JSON file never changes. -/
  keeps : ∀ earlier later : List Selection, earlier <+: later →
    (Origins.ofSelections earlier).Keeps (.ofSelections later)
  /-- A directive that was answered was searched for. -/
  searched : ∀ source written target?,
    load.state.answers.lookup (source, written) = some target? →
      ∃ search ∈ load.searches, search.includer = load.state.files.path source ∧
        search.written = written
  /-- Whatever selects a JSON file that holds a tree leads to a file of the schema. -/
  arrives : ∀ jsonPath, (jsonPath ∈ paths ∨ ∃ search ∈ load.searches, ∃ selection,
      search.selection? system includeDirs = some selection ∧ selection.jsonPath = jsonPath) →
    ∃ id : FileId, id.index < load.state.files.size ∧
      load.Refers system includeDirs paths roots jsonPath id
  /-- An include whose JSON file holds no tree can only lead to a file with the path that it writes. -/
  missed : ∀ search ∈ load.searches, search.selection? system includeDirs = none →
    ∀ source id, load.state.files.path source = search.includer →
      load.state.answers.lookup (source, search.written) = some (some id) →
        load.state.files.path id = search.written
  /-- JSON files with a normal path lead to one file if and only if the roots declare one path. -/
  once_iff : ∀ normal, load.OnceAt system includeDirs paths roots normal ↔
    Selection.ConsistentAt normal (FileSystem.given paths roots)
  /-- That is so for all normal paths if paths lead where their normal forms lead. -/
  once : system.Folds → ∀ normal, load.OnceAt system includeDirs paths roots normal
  /-- Each file is what a JSON file that leads to it holds. -/
  held : ∀ id file, load.state.files.get? id = some file →
    ∃ jsonPath, load.Refers system includeDirs paths roots jsonPath id ∧
      system.readTree jsonPath = .ok file.tree

namespace FileSystem

variable {system : FileSystem Id} {includeDirs : List String} {limit : Nat} {paths : List String}
  {roots : List FileTree} {origins : Origins}

theorem Folds.readTree (folds : system.Folds) {path : String} {tree : FileTree}
    (read : system.readTree path = .ok tree) :
    system.readTree (Path.normalize path) = .ok tree := by
  rw [readTree_eq] at read ⊢
  cases text_read : system.read path with
  | error failure =>
      rw [text_read] at read
      cases read
  | ok text =>
      rw [folds path text text_read]
      rw [text_read] at read
      dsimp only at read ⊢
      split at read
      · exact read
      · cases read

theorem exists_of_mem_given {selection : Selection} (member : selection ∈ given paths roots) :
    ∃ (index : Nat) (path : String) (root : FileTree), paths[index]? = some path ∧
      roots[index]? = some root ∧ selection = .ofRoot path root := by
  obtain ⟨index, found⟩ := List.mem_iff_getElem?.mp member
  obtain ⟨path, root, at_path, at_root, same⟩ := List.getElem?_zipWith_eq_some.mp found
  exact ⟨index, path, root, at_path, at_root, same.symm⟩

theorem mem_given {index : Nat} {path : String} {root : FileTree}
    (at_path : paths[index]? = some path) (at_root : roots[index]? = some root) :
    .ofRoot path root ∈ given paths roots :=
  List.mem_of_getElem? (List.getElem?_zipWith_eq_some.mpr ⟨path, root, at_path, at_root, rfl⟩)

section

variable (each : List.Forall₂ (fun path root => system.readTree path = .ok root) paths roots)

include each

theorem readTree_of_getElem? {index : Nat} {path : String} {root : FileTree}
    (at_path : paths[index]? = some path) (at_root : roots[index]? = some root) :
    system.readTree path = .ok root := by
  obtain ⟨other, at_other, read⟩ := each.getElem? at_path
  rw [at_root] at at_other
  exact Option.some.inj at_other ▸ read

/-- What is selected is what the JSON file holds. -/
theorem readTree_of_mem {searches : List (Search Origins)} {selection : Selection}
    (member : selection ∈ given paths roots ++ selections system includeDirs searches) :
    system.readTree selection.jsonPath = .ok selection.tree := by
  rcases List.mem_append.mp member with first | later
  · obtain ⟨_, path, root, at_path, at_root, rfl⟩ := exists_of_mem_given first
    exact readTree_of_getElem? each at_path at_root
  · obtain ⟨search, _, selected⟩ := List.mem_filterMap.mp later
    exact (select?_eq_some selected).2.2

/-- Roots that are read from the same JSON file declare the same path. -/
theorem consistentAt_given (folds : system.Folds) (normal : String) :
    Selection.ConsistentAt normal (given paths roots) := by
  intro selection member other member' same same'
  obtain ⟨_, path, root, at_path, at_root, rfl⟩ := exists_of_mem_given member
  obtain ⟨_, path', root', at_path', at_root', rfl⟩ := exists_of_mem_given member'
  have read := folds.readTree (readTree_of_getElem? each at_path at_root)
  have read' := folds.readTree (readTree_of_getElem? each at_path' at_root')
  have same_path : Path.normalize path = Path.normalize path' := same.trans same'.symm
  rw [same_path, read'] at read
  exact congrArg FileTree.path (Except.ok.inj read).symm

end

/-! ## What leads to a file -/

section

variable {load : DiskLoad}
  (traced : Traced system includeDirs (given paths roots) (load.state, load.origins, load.searches))
  (grows : (Loading.rooted roots).files.Grows load.state.files)

include grows in
theorem refers_root {index : Nat} {path : String} {root : FileTree}
    (at_path : paths[index]? = some path) (at_root : roots[index]? = some root) :
    ∃ id : FileId, id.index < load.state.files.size ∧ load.state.files.path id = root.path ∧
      load.Refers system includeDirs paths roots path id := by
  have added := IncludeWalk.rootsAdded_addRoots roots .empty
  obtain ⟨id, at_id, same⟩ := added.places.getElem? at_root
  have inside := added.inside id (List.mem_of_getElem? at_id)
  exact ⟨id, grows.lt_size inside, (grows.path_eq inside).trans same, .root at_path at_id⟩

include traced

include grows in
/-- Whatever was selected leads to the file with its schema path. -/
theorem exists_refers {selection : Selection}
    (member : selection ∈ given paths roots ++ selections system includeDirs load.searches) :
    ∃ id : FileId, id.index < load.state.files.size ∧
      load.state.files.path id = selection.schemaPath ∧
      load.Refers system includeDirs paths roots selection.jsonPath id := by
  rcases List.mem_append.mp member with first | later
  · obtain ⟨index, path, root, at_path, at_root, rfl⟩ := exists_of_mem_given first
    exact refers_root grows at_path at_root
  · obtain ⟨search, search_mem, selected⟩ := List.mem_filterMap.mp later
    obtain ⟨source, target?, answer, answers⟩ := traced.answered search search_mem
    obtain ⟨id, rfl, inside, path⟩ := answers.selected selection selected
    have came := Search.jsonPath?_of_selection? selected
    exact ⟨id, inside, path, .found search_mem came answers.includer answer⟩

/-- Only one file has the path of an includer, so a directive has the answer of its search. -/
theorem answers_of_lookup {search : Search Origins} {source id : FileId}
    (search_mem : search ∈ load.searches) (path : load.state.files.path source = search.includer)
    (answer : load.state.answers.lookup (source, search.written) = some (some id)) :
    search.Answers system includeDirs load.state.files source (some id) := by
  obtain ⟨source', target?, answer', answers⟩ := traced.answered search search_mem
  have inside := (traced.asked source search.written _ answer).1
  obtain rfl : source = source' := FileTable.eq_of_path_eq traced.selected.nodup inside
    answers.inside (path.trans answers.includer.symm)
  rw [answer, Option.some.injEq] at answer'
  exact answer' ▸ answers

include grows

/-- What leads from a JSON file with a tree to a file is a selection for its path. -/
theorem exists_selection {jsonPath : String} {tree : FileTree} {id : FileId}
    (read : system.readTree jsonPath = .ok tree)
    (refers : load.Refers system includeDirs paths roots jsonPath id) :
    id.index < load.state.files.size ∧
      ∃ selection ∈ given paths roots ++ selections system includeDirs load.searches,
        selection.jsonPath = jsonPath ∧ load.state.files.path id = selection.schemaPath := by
  cases refers with
  | @root index _ _ at_path at_id =>
      have added := IncludeWalk.rootsAdded_addRoots roots .empty
      obtain ⟨root, at_root, same⟩ := added.places.flip.getElem? at_id
      have inside := added.inside id (List.mem_of_getElem? at_id)
      refine ⟨grows.lt_size inside, .ofRoot jsonPath root, ?_, rfl, ?_⟩
      · exact List.mem_append_left _ (mem_given at_path at_root)
      · exact (grows.path_eq inside).trans same
  | @found search _ source _ search_mem came path answer =>
      have answers := answers_of_lookup traced search_mem path answer
      obtain ⟨selection, selected, same⟩ := Search.exists_selection? came read
      obtain ⟨id', same_id, inside, path'⟩ := answers.selected selection selected
      obtain rfl := Option.some.inj same_id
      refine ⟨inside, selection, List.mem_append_right _ ?_, same, path'⟩
      exact List.mem_filterMap.mpr ⟨search, search_mem, selected⟩

variable (each : List.Forall₂ (fun path root => system.readTree path = .ok root) paths roots)

include each

/-- JSON files with one normal path lead to one file if and only if the roots declare one path. -/
theorem onceAt_iff (normal : String) : load.OnceAt system includeDirs paths roots normal ↔
    Selection.ConsistentAt normal (given paths roots) := by
  constructor
  · intro once selection member other member' same same'
    obtain ⟨_, path, root, at_path, at_root, rfl⟩ := exists_of_mem_given member
    obtain ⟨_, path', root', at_path', at_root', rfl⟩ := exists_of_mem_given member'
    have read := readTree_of_getElem? each at_path at_root
    have read' := readTree_of_getElem? each at_path' at_root'
    obtain ⟨id, _, declared, refers⟩ := refers_root grows at_path at_root
    obtain ⟨id', _, declared', refers'⟩ := refers_root grows at_path' at_root'
    have same_id := once path path' root root' id id' same same' read read' refers refers'
    exact declared.symm.trans (same_id ▸ declared')
  · intro declared jsonPath jsonPath' tree tree' id id' same same' read read' refers refers'
    have consistent := traced.consistent_selections declared
    obtain ⟨inside, selection, member, rfl, path⟩ := exists_selection traced grows read refers
    obtain ⟨inside', selection', member', rfl, path'⟩ := exists_selection traced grows read' refers'
    refine FileTable.eq_of_path_eq traced.selected.nodup inside inside' ?_
    rw [path, path', consistent selection member selection' member' same same']

end

/--
Whatever a file system holds, JSON files that hold trees and have the same normal path lead to the
same file of the schema, unless roots among them declare different paths.
-/
theorem loadsOnce (system : FileSystem Id) (includeDirs : List String) (limit : Nat)
    (paths : List String) {roots : List FileTree} {origins : Origins}
    (read : system.readRoots paths .empty = .ok (roots, origins)) :
    LoadsOnce system includeDirs limit paths roots origins
      (system.diskLoad includeDirs limit roots origins) := by
  have loaded := system.load_eq includeDirs limit roots origins
  have traced := system.traced_diskLoad includeDirs limit read
  have grows : (Loading.rooted roots).files.Grows
      (system.diskLoad includeDirs limit roots origins).state.files :=
    (Loading.run_load (system.resolver includeDirs).noted limit roots (origins, [])).grows
  obtain ⟨each, same⟩ := readRoots_eq_ok_iff.mp read
  generalize system.diskLoad includeDirs limit roots origins = load at loaded traced grows ⊢
  constructor
  case loaded => exact loaded
  case known_roots =>
    intro count
    rw [given, List.take_zipWith]
    exact system.readRoots_eq_ok (List.forall₂_take count each)
  case known_searches => exact fun index search found => (traced.each index search found).known
  case known => exact traced.origins
  case keeps => exact fun earlier later => Origins.keeps_ofSelections
  case searched => exact fun source written target? answer => (traced.asked source written target? answer).2
  case arrives =>
    intro jsonPath selects
    rcases selects with listed | ⟨search, search_mem, selection, selected, rfl⟩
    · obtain ⟨index, at_path⟩ := List.mem_iff_getElem?.mp listed
      obtain ⟨root, at_root, _⟩ := each.getElem? at_path
      obtain ⟨id, inside, _, refers⟩ := refers_root grows at_path at_root
      exact ⟨id, inside, refers⟩
    · have member : selection ∈ selections system includeDirs load.searches :=
        List.mem_filterMap.mpr ⟨search, search_mem, selected⟩
      obtain ⟨id, inside, _, refers⟩ := exists_refers traced grows (List.mem_append_right _ member)
      exact ⟨id, inside, refers⟩
  case missed =>
    intro search search_mem absent source id path answer
    exact ((answers_of_lookup traced search_mem path answer).missed absent id rfl).2
  case once_iff => exact onceAt_iff traced grows each
  case once =>
    intro folds normal
    exact (onceAt_iff traced grows each normal).mpr (consistentAt_given each folds normal)
  case held =>
    intro id file found
    obtain ⟨first, first_found, tree⟩ := traced.selected.trees file (List.mem_of_getElem? found)
    have member := List.mem_of_find?_eq_some first_found
    have path : first.schemaPath = file.path := by simpa using List.find?_some first_found
    obtain ⟨id', inside', path', refers⟩ := exists_refers traced grows member
    have path_id : load.state.files.path id = file.path := by simp [FileTable.path, found]
    obtain rfl : id = id' :=
      FileTable.eq_of_path_eq traced.selected.nodup (FileTable.get?_eq_some_iff.mp ⟨file, found⟩)
        inside' (path_id.trans (path'.trans path).symm)
    exact ⟨first.jsonPath, refers, tree ▸ readTree_of_mem each member⟩

/-! ## Fixed maps -/

/-- A fixed map from paths to texts.  A path and its normal form need not have the same text. -/
def ofTexts (texts : List (String × String)) : FileSystem Id :=
  { read := fun path =>
      match texts.lookup path with
      | some text => .ok text
      | none => .error .notFound
    isFile := fun path => (texts.lookup path).isSome
    write := fun _ _ => .error (.other "read-only file system") }

/-- A map folds if each path in it has the text of its normal form. -/
theorem folds_ofTexts {texts : List (String × String)}
    (same : ∀ entry ∈ texts, texts.lookup (Path.normalize entry.1) = texts.lookup entry.1) :
    (ofTexts texts).Folds := by
  intro path text read
  have found : texts.lookup path = some text := by
    dsimp only [ofTexts] at read
    split at read
    · rename_i found
      rw [found, Except.ok.inj read]
    · cases read
  obtain ⟨front, back, rfl, _⟩ := List.lookup_eq_some_iff.mp found
  have at_normal := same (path, text) (by simp)
  dsimp only [ofTexts] at at_normal ⊢
  rw [at_normal, found]

/-- Two roots by absolute paths, one of them included by the other. -/
def sharedFile : FileSystem Id :=
  ofTexts
    [("/idl/a.json", (includingJson "a" ["b"]).compact),
      ("/idl/./b.json", (includingJson "b" []).compact),
      ("/idl/b.json", (includingJson "b" []).compact)]

set_option maxRecDepth 10000 in
theorem loadsOnce_sharedFile : sharedFile.Folds ∧ ∃ roots origins,
    sharedFile.readRoots ["/idl/a.json", "/idl/./b.json"] .empty = .ok (roots, origins) ∧
      (sharedFile.diskLoad [] 1 roots origins).state.files.paths = ["a", "b"] ∧
      LoadsOnce sharedFile [] 1 ["/idl/a.json", "/idl/./b.json"] roots origins
        (sharedFile.diskLoad [] 1 roots origins) := by
  have first : sharedFile.readTree "/idl/a.json" = .ok (.including "a" ["b"]) :=
    readTree_of_json (isText_includingJson "a" ["b"]) rfl rfl
  have second : sharedFile.readTree "/idl/./b.json" = .ok (.including "b" []) :=
    readTree_of_json (isText_includingJson "b" []) rfl rfl
  have read := sharedFile.readRoots_eq_ok (.cons first (.cons second .nil))
  refine ⟨folds_ofTexts ?_, _, _, read, ?_, loadsOnce sharedFile [] 1 _ read⟩
  · decide +kernel
  · decide +kernel

/-- Where a directory is a link, to leave it leads elsewhere than back. -/
def linkedDirectory : FileSystem Id :=
  ofTexts
    [("x/../a.json", (includingJson "linked" []).compact),
      ("a.json", (includingJson "plain" []).compact)]

/-- Two JSON files with one normal path. -/
def linkedPaths : List String :=
  ["x/../a.json", "a.json"]

/-- The JSON files hold different trees. -/
def linkedTrees : List FileTree :=
  [.including "linked" [], .including "plain" []]

theorem readRoots_linkedDirectory : linkedDirectory.readRoots linkedPaths .empty =
    .ok (linkedTrees, .ofSelections (given linkedPaths linkedTrees)) := by
  have first : linkedDirectory.readTree "x/../a.json" = .ok (.including "linked" []) :=
    readTree_of_json (isText_includingJson "linked" []) rfl rfl
  have second : linkedDirectory.readTree "a.json" = .ok (.including "plain" []) :=
    readTree_of_json (isText_includingJson "plain" []) rfl rfl
  exact linkedDirectory.readRoots_eq_ok (.cons first (.cons second .nil))

/-- A JSON file without a tree, and roots that declare the two paths by which it is included. -/
def brokenFile : FileSystem Id :=
  ofTexts
    [("r.json", (includingJson "b.thrift" []).compact),
      ("q.json", (includingJson "./b.thrift" []).compact),
      ("m.json", (includingJson "m.thrift" ["b.thrift", "./b.thrift"]).compact),
      ("b.thrift.json", (Json.object []).compact)]

/-- The JSON files of three roots. -/
def brokenPaths : List String :=
  ["r.json", "q.json", "m.json"]

/-- The last root includes one JSON file by two paths. -/
def brokenTrees : List FileTree :=
  [.including "b.thrift" [], .including "./b.thrift" [],
    .including "m.thrift" ["b.thrift", "./b.thrift"]]

theorem readRoots_brokenFile : brokenFile.readRoots brokenPaths .empty =
    .ok (brokenTrees, .ofSelections (given brokenPaths brokenTrees)) := by
  have first : brokenFile.readTree "r.json" = .ok (.including "b.thrift" []) :=
    readTree_of_json (isText_includingJson "b.thrift" []) rfl rfl
  have second : brokenFile.readTree "q.json" = .ok (.including "./b.thrift" []) :=
    readTree_of_json (isText_includingJson "./b.thrift" []) rfl rfl
  have third : brokenFile.readTree "m.json" =
      .ok (.including "m.thrift" ["b.thrift", "./b.thrift"]) :=
    readTree_of_json (isText_includingJson "m.thrift" ["b.thrift", "./b.thrift"]) rfl rfl
  exact brokenFile.readRoots_eq_ok (.cons first (.cons second (.cons third .nil)))

/-- The load of the three roots. -/
def brokenLoad : DiskLoad :=
  brokenFile.diskLoad [] 1 brokenTrees (.ofSelections (given brokenPaths brokenTrees))

/-- Both includes come to the JSON file without a tree, and each leads to the root with its path. -/
theorem refers_brokenLoad {written : String} {id : FileId}
    (member : (written, id) ∈ [("b.thrift", FileId.mk 0), ("./b.thrift", ⟨1⟩)]) :
    brokenLoad.Refers brokenFile [] brokenPaths brokenTrees "b.thrift.json" id := by
  have came : brokenLoad.searches.map (fun search =>
      (search.includer, search.written, search.jsonPath? brokenFile [])) =
        [("m.thrift", "b.thrift", some "b.thrift.json"),
          ("m.thrift", "./b.thrift", some "b.thrift.json")] := by
    decide +kernel
  have answers : brokenLoad.state.answers =
      [((⟨2⟩, "./b.thrift"), some ⟨1⟩), ((⟨2⟩, "b.thrift"), some ⟨0⟩)] := by
    decide +kernel
  have path : brokenLoad.state.files.path ⟨2⟩ = "m.thrift" := by
    decide +kernel
  have asked : ("m.thrift", written, some "b.thrift.json") ∈ brokenLoad.searches.map fun search =>
      (search.includer, search.written, search.jsonPath? brokenFile []) := by
    rw [came]
    exact List.mem_map_of_mem (f := fun entry : String × FileId =>
      ("m.thrift", entry.1, some "b.thrift.json")) member
  have answer : brokenLoad.state.answers.lookup (⟨2⟩, written) = some (some id) := by
    rw [answers]
    rcases List.mem_pair.mp member with same | same <;> cases same <;> rfl
  obtain ⟨search, search_mem, same⟩ := List.mem_map.mp asked
  obtain ⟨includer, same⟩ := Prod.mk.inj same
  obtain ⟨same_written, came⟩ := Prod.mk.inj same
  rw [← same_written] at answer
  exact .found search_mem came (path.trans includer.symm) answer

/-- Where a directory is a link, roots with one normal path are two files. -/
theorem not_oncePerPath_linkedDirectory :
    let origins := Origins.ofSelections (given linkedPaths linkedTrees)
    ¬ (linkedDirectory.diskLoad [] 1 linkedTrees origins).OncePerPath linkedDirectory []
      linkedPaths linkedTrees := by
  intro origins once
  have normal : Path.normalize "x/../a.json" = Path.normalize "a.json" := by decide +kernel
  have same := once _ _ ⟨0⟩ ⟨1⟩ normal (@DiskLoad.Refers.root _ _ _ _ _ 0 _ _ rfl rfl)
    (@DiskLoad.Refers.root _ _ _ _ _ 1 _ _ rfl rfl)
  cases same

/-- Includes that come to one JSON file without a tree lead to two files. -/
theorem not_oncePerPath_brokenFile :
    ¬ brokenLoad.OncePerPath brokenFile [] brokenPaths brokenTrees := by
  intro once
  have same := once _ _ ⟨0⟩ ⟨1⟩ rfl (refers_brokenLoad List.mem_cons_self)
    (refers_brokenLoad (List.mem_cons_of_mem _ List.mem_cons_self))
  cases same

/-- Neither through links nor without trees do all JSON files with one path lead to one file. -/
theorem not_oncePerPath :
    (∃ origins,
      linkedDirectory.readRoots linkedPaths .empty = .ok (linkedTrees, origins) ∧
        ¬ (linkedDirectory.diskLoad [] 1 linkedTrees origins).OncePerPath linkedDirectory []
          linkedPaths linkedTrees) ∧
      ∃ origins,
        brokenFile.readRoots brokenPaths .empty = .ok (brokenTrees, origins) ∧
          ¬ (brokenFile.diskLoad [] 1 brokenTrees origins).OncePerPath brokenFile [] brokenPaths
            brokenTrees :=
  ⟨⟨_, readRoots_linkedDirectory, not_oncePerPath_linkedDirectory⟩,
    _, readRoots_brokenFile, not_oncePerPath_brokenFile⟩

end FileSystem

namespace Disk

open FileSystem

/-- On a disk, JSON files that hold trees and have the same normal path lead to the same file. -/
theorem onceAt (disk : Disk) (includeDirs : List String) (limit : Nat) (paths : List String)
    {roots : List FileTree} {origins : Origins}
    (read : disk.snapshot.readRoots paths .empty = .ok (roots, origins)) (normal : String) :
    (disk.snapshot.diskLoad includeDirs limit roots origins).OnceAt disk.snapshot includeDirs paths
      roots normal := by
  have traced := disk.snapshot.traced_diskLoad includeDirs limit read
  have grows := (Loading.run_load (disk.snapshot.resolver includeDirs).noted limit roots
    (origins, [])).grows
  obtain ⟨each, _⟩ := readRoots_eq_ok_iff.mp read
  exact (onceAt_iff traced grows each normal).mpr (consistentAt_given each disk.folds_snapshot normal)

end Disk
end IdlSchema
